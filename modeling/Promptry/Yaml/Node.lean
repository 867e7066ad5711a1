import Promptry.Yaml.Event
import Promptry.Yaml.Token.Lexer

/-!
Events as a tree of nodes. An alias leads to the position of the event that it stands for, so the
tree is finite even if aliases go round in a circle.
-/

namespace Promptry.Yaml

inductive Node where
  /-- An alias, with the position of what it stands for. -/
  | aliasOf (target : Nat)
  | scalar (tag : Option String) (style : ScalarStyle) (text : String)
  | sequence (tag : Option String) (items : List Node)
  | mapping (tag : Option String) (entries : List (Node × Node))
  deriving Repr, Inhabited

/-- A text as nodes. -/
structure Document where
  /-- There is none in a text of blanks and comments only. -/
  root : Option Node
  /-- The nodes that have an anchor, by the position of their events. -/
  anchored : List (Nat × Node)
  /-- The number of events. -/
  size : Nat

/-! ### Anchors -/

/-- The anchors up to a place in the text. Each has a number: how many names were known before it.
Of two anchors of one number the later counts, also for aliases before it. -/
structure Anchors where
  /-- The names known and their numbers. -/
  names : List (List Char × Nat) := []
  /-- The positions of the numbers, the latest first. -/
  places : List (Nat × Nat) := []

namespace Anchors

/-- Gives a name the next number, at a position. -/
def define (a : Anchors) (name : List Char) (position : Nat) : Anchors :=
  let number := a.names.length
  ⟨(name, number) :: a.names.filter fun n => n.1 != name, (number, position) :: a.places⟩

/-- The properties of the node that an event begins. -/
def properties? : Event → Option Properties
  | .scalar p _ _ => some p
  | .sequenceStart p => some p
  | .mappingStart p => some p
  | _ => none

/-- Pairs each event with a number: an alias with that of its anchor, any other with its position.
An alias without an anchor before it is refused. -/
def number : (position : Nat) → Anchors → List Event → (out : List (Event × Nat)) →
    Option (List (Event × Nat) × Anchors)
  | _, a, [], out => some (out.reverse, a)
  | position, a, .aliasOf name :: es, out =>
    match a.names.lookup name with
    | some n => number (position + 1) a es ((.aliasOf name, n) :: out)
    | none => none
  | position, a, e :: es, out =>
    let a := match (properties? e).bind (·.anchor) with
      | some name => a.define name position
      | none => a
    number (position + 1) a es ((e, position) :: out)

end Anchors

/-! ### Building the tree -/

/-- A collection that is still open, with what it holds so far, last first. -/
inductive Frame where
  | sequence (props : Properties) (position : Nat) (items : List Node)
  | mapping (props : Properties) (position : Nat) (key : Option Node) (entries : List (Node × Node))

structure Builder where
  /-- The open collections, innermost first. -/
  frames : List Frame := []
  root : Option Node := none
  anchored : List (Nat × Node) := []

namespace Builder

/-- Puts a whole node where it belongs. -/
def add (b : Builder) (props : Properties) (position : Nat) (n : Node) : Builder :=
  let anchored := if props.anchor.isSome then (position, n) :: b.anchored else b.anchored
  match b.frames with
  | [] => { b with root := some n, anchored }
  | .sequence p pos items :: outer =>
      { b with frames := .sequence p pos (n :: items) :: outer, anchored }
  | .mapping p pos none entries :: outer =>
      { b with frames := .mapping p pos (some n) entries :: outer, anchored }
  | .mapping p pos (some k) entries :: outer =>
      { b with frames := .mapping p pos none ((k, n) :: entries) :: outer, anchored }

def tagText (p : Properties) : Option String := p.tag.map String.ofList

/-- Takes up an event; the number of an alias leads through `places`. -/
def step (places : List (Nat × Nat)) (b : Builder) : Event × Nat → Option Builder
  | (.aliasOf _, n) => (places.lookup n).map fun target => b.add {} n (.aliasOf target)
  | (.scalar p style text, n) => some (b.add p n (.scalar (tagText p) style (String.ofList text)))
  | (.sequenceStart p, n) => some { b with frames := .sequence p n [] :: b.frames }
  | (.mappingStart p, n) => some { b with frames := .mapping p n none [] :: b.frames }
  | (.sequenceEnd, _) =>
      match b.frames with
      | .sequence p n items :: outer =>
          some (add { b with frames := outer } p n (.sequence (tagText p) items.reverse))
      | _ => none
  | (.mappingEnd, _) =>
      match b.frames with
      | .mapping p n none entries :: outer =>
          some (add { b with frames := outer } p n (.mapping (tagText p) entries.reverse))
      | _ => none

end Builder

namespace Document

/-- The tree of a list of events. -/
def ofEvents? (es : List Event) : Option Document := do
  let (numbered, anchors) ← Anchors.number 0 {} es []
  let b ← numbered.foldlM (Builder.step anchors.places) {}
  return ⟨b.root, b.anchored, es.length⟩

/-- The tree of a text. -/
def ofText? (cs : List Char) : Option Document := do
  ofEvents? (← Event.ofTokens? (← Token.ofText? cs))

/-- The node at a position that an alias leads to. -/
def node? (d : Document) (target : Nat) : Option Node := d.anchored.lookup target

end Document

end Promptry.Yaml
