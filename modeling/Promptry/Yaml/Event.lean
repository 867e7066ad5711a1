import Promptry.Yaml.Token.Basic

/-!
Tokens as events: nodes in the order of the text, a collection between its start and its end. The
goals that are left to be met are kept on a stack, so that no depth of nesting is too deep. Text
that holds a second document is refused.
-/

namespace Promptry.Yaml

/-- What may stand before a node. -/
structure Properties where
  anchor : Option (List Char) := none
  /-- The whole tag, its handle replaced by what it stands for. -/
  tag : Option (List Char) := none
  deriving DecidableEq, Repr

inductive Event where
  | aliasOf (name : List Char)
  | scalar (props : Properties) (style : ScalarStyle) (text : List Char)
  | sequenceStart (props : Properties)
  | sequenceEnd
  | mappingStart (props : Properties)
  | mappingEnd
  deriving DecidableEq, Repr

namespace Event

/-- The node where nothing was written. -/
def empty : Event := .scalar {} .plain []

end Event

/-- The handles of tags and what they stand for. -/
abbrev Handles := List (List Char × List Char)

/-- The whole tag of a handle and a suffix. -/
def Handles.tag? (handles : Handles) (handle suffix : List Char) : Option (List Char) :=
  if handle.isEmpty then some suffix else (handles.lookup handle).map (· ++ suffix)

namespace Properties

/-- The properties in front of a node, in either order. -/
def read (handles : Handles) : List Token → Option (Properties × List Token)
  | .anchor a :: .tag h s :: r => (handles.tag? h s).map fun t => (⟨some a, some t⟩, r)
  | .anchor a :: r => some (⟨some a, none⟩, r)
  | .tag h s :: .anchor a :: r => (handles.tag? h s).map fun t => (⟨some a, some t⟩, r)
  | .tag h s :: r => (handles.tag? h s).map fun t => (⟨none, some t⟩, r)
  | r => some ({}, r)

/-- A scalar's tag that only says that it is not resolved is dropped. -/
def ofScalar (p : Properties) : Properties :=
  if p.tag = some ['!'] then { p with tag := none } else p

end Properties

/-- What is to be read next. -/
inductive Goal where
  /-- A node; in the block context it may be a block collection, as a key or value also a sequence
  that is not indented. -/
  | node (block : Bool) (indentless : Bool)
  | blockItem
  | indentlessItem
  | blockKey
  | blockValue
  | flowItem (first : Bool)
  /-- The key, the value and the end of a single pair inside a flow sequence. -/
  | pairKey
  | pairValue
  | pairEnd
  | flowKey (first : Bool)
  | flowValue
  /-- The value of a key that has no mark. -/
  | noValue
  deriving DecidableEq, Repr

namespace Goal

/-- What meeting a goal gives: events, the goals that take its place, and the tokens left. -/
abbrev Met := List Event × List Goal × List Token

/-- Whether the next token is one of those listed. -/
def nextIn (ts : List Token) : List Token → Bool
  | [] => false
  | t :: _ => ts.contains t

/-- A node that is empty if one of the tokens listed comes next. -/
def nodeUnless (ends : List Token) (block indentless : Bool) (after : List Goal)
    (ts : List Token) : Met :=
  if nextIn ends ts then ([.empty], after, ts) else ([], .node block indentless :: after, ts)

/-- A node behind its properties. -/
def content (p : Properties) (block indentless : Bool) (ts : List Token) : Option Met :=
  match ts with
  | .scalar style text :: r => some ([.scalar p.ofScalar style text], [], r)
  | .flowSequence :: r => some ([.sequenceStart p], [.flowItem true], r)
  | .flowMapping :: r => some ([.mappingStart p], [.flowKey true], r)
  | ts =>
    match ts, block, indentless with
    | .blockEntry :: _, _, true => some ([.sequenceStart p], [.indentlessItem], ts)
    | .blockSequence :: r, true, _ => some ([.sequenceStart p], [.blockItem], r)
    | .blockMapping :: r, true, _ => some ([.mappingStart p], [.blockKey], r)
    | _, _, _ => if p = {} then none else some ([.scalar p .plain []], [], ts)

/-- The tokens behind the comma that parts an item from the one before. -/
def behindComma (first : Bool) : List Token → Option (List Token)
  | .flowEntry :: r => some (if first then .flowEntry :: r else r)
  | ts => if first then some ts else none

def meet (handles : Handles) (goal : Goal) (ts : List Token) : Option Met :=
  match goal, ts with
  | .node _ _, .aliasOf name :: r => some ([.aliasOf name], [], r)
  | .node block indentless, ts => do
      let (p, ts) ← Properties.read handles ts
      content p block indentless ts
  | .blockItem, .blockEntry :: r =>
      some (nodeUnless [.blockEntry, .blockEnd] true false [.blockItem] r)
  | .blockItem, .blockEnd :: r => some ([.sequenceEnd], [], r)
  | .blockItem, _ => none
  | .indentlessItem, .blockEntry :: r =>
      some (nodeUnless [.blockEntry, .key, .value, .blockEnd] true false [.indentlessItem] r)
  | .indentlessItem, ts => some ([.sequenceEnd], [], ts)
  | .blockKey, .key :: r => some (nodeUnless [.key, .value, .blockEnd] true true [.blockValue] r)
  | .blockKey, .blockEnd :: r => some ([.mappingEnd], [], r)
  | .blockKey, _ => none
  | .blockValue, .value :: r => some (nodeUnless [.key, .value, .blockEnd] true true [.blockKey] r)
  | .blockValue, ts => some ([.empty], [.blockKey], ts)
  | .flowItem _, .flowSequenceEnd :: r => some ([.sequenceEnd], [], r)
  | .flowItem first, ts => do
      match ← behindComma first ts with
      | .key :: r => some ([.mappingStart {}], [.pairKey, .pairValue, .pairEnd, .flowItem false], r)
      | .flowSequenceEnd :: r => some ([.sequenceEnd], [], r)
      | ts => some ([], [.node false false, .flowItem false], ts)
  | .pairKey, ts =>
      -- a token that ends the key is passed over
      if nextIn [.value, .flowEntry, .flowSequenceEnd] ts then some ([.empty], [], ts.tail)
      else some ([], [.node false false], ts)
  | .pairValue, .value :: r =>
      some (nodeUnless [.flowEntry, .flowSequenceEnd] false false [] r)
  | .pairValue, ts => some ([.empty], [], ts)
  | .pairEnd, ts => some ([.mappingEnd], [], ts)
  | .flowKey _, .flowMappingEnd :: r => some ([.mappingEnd], [], r)
  | .flowKey first, ts => do
      match ← behindComma first ts with
      | .key :: r =>
          some (nodeUnless [.value, .flowEntry, .flowMappingEnd] false false
            [.flowValue, .flowKey false] r)
      | .flowMappingEnd :: r => some ([.mappingEnd], [], r)
      | ts => some ([], [.node false false, .noValue, .flowKey false], ts)
  | .flowValue, .value :: r => some (nodeUnless [.flowEntry, .flowMappingEnd] false false [] r)
  | .flowValue, ts => some ([.empty], [], ts)
  | .noValue, ts => some ([.empty], [], ts)

/-- Meets all goals in turn; `out` holds the events so far, last first. -/
def meetAll (handles : Handles) :
    (fuel : Nat) → List Goal → List Token → (out : List Event) → Option (List Event × List Token)
  | _, [], ts, out => some (out.reverse, ts)
  | 0, _, _, _ => none
  | fuel + 1, goal :: goals, ts, out =>
    match goal.meet handles ts with
    | none => none
    | some (es, gs, ts) => meetAll handles fuel (gs ++ goals) ts (es.reverse ++ out)

end Goal

namespace Handles

/-- The handles that need no directive. -/
def standard : Handles :=
  [(['!'], ['!']), (['!', '!'], "tag:yaml.org,2002:".toList)]

/-- Reads the directives in front of a document: at most one version, one that is known, and each
handle once. -/
def read (versioned : Bool) (handles : Handles) : List Token → Option (Handles × List Token)
  | .version major minor :: r =>
      if versioned || major ≠ 1 || (minor ≠ 1 && minor ≠ 2) then none else read true handles r
  | .tagPrefix handle meaning :: r =>
      if (handles.lookup handle).isSome then none
      else read versioned ((handle, meaning) :: handles) r
  | ts => some (handles ++ standard, ts)

end Handles

namespace Event

/-- The events of a document behind its start. -/
def content? (handles : Handles) (ts : List Token) : Option (List Event × List Token) :=
  Goal.meetAll handles (8 * ts.length + 8) [.node true false] ts []

/-- The end of a document: marks only. -/
def endsStream (ts : List Token) : Bool := ts.all (· == .documentEnd)

/-- Whether a token can only stand outside of a document. -/
def isOutside : Token → Bool
  | .version _ _ => true
  | .tagPrefix _ _ => true
  | .documentStart => true
  | _ => false

/-- The events of the one document of a text; none at all if there is no document. -/
def ofTokens? (ts : List Token) : Option (List Event) :=
  match ts with
  | [] => some []
  | t :: _ => do
    let (es, rest) ←
      if isOutside t then do
        let (handles, ts) ← Handles.read false [] ts
        match ts with
        | .documentStart :: r =>
          if r.head?.all fun t => isOutside t || t == .documentEnd then some ([empty], r)
          else content? handles r
        | _ => none
      else content? Handles.standard ts
    if endsStream rest then some es else none

end Event

end Promptry.Yaml
