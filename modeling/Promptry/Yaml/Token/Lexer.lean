import Promptry.Yaml.Scalar.Block
import Promptry.Yaml.Scalar.Plain
import Promptry.Yaml.Scalar.Quoted
import Promptry.Yaml.Token.Tag

/-!
YAML text as tokens. In the block context a change of indentation opens or closes a collection. A
key without a mark is seen only at its colon: the lexer remembers where such a key may have begun,
and the tokens that announce it are put in there.
-/

namespace Promptry.Yaml

/-- A place where a key without a mark may have begun. -/
structure KeyStart where
  /-- It begins a line of a block mapping, so a key it must be. -/
  required : Bool
  /-- The number of tokens before it. -/
  before : Nat
  line : Nat
  column : Nat
  index : Nat

structure Lexer where
  place : Cursor
  /-- The tokens so far, last first. -/
  out : List Token := []
  count : Nat := 0
  /-- The columns of the open block collections, innermost first. -/
  indents : List Nat := []
  /-- Whether a key without a mark may begin here. -/
  keyAllowed : Bool := true
  /-- Where such a key may have begun. -/
  keyStart : Option KeyStart := none
  /-- The same for the collections around, one for each open flow collection. -/
  outerStarts : List (Option KeyStart) := []

namespace Lexer

def inFlow (s : Lexer) : Bool := !s.outerStarts.isEmpty

/-- The first column of what belongs to the innermost block collection. -/
def depth (s : Lexer) : Nat :=
  match s.indents with
  | [] => 0
  | n :: _ => n + 1

def emit (t : Token) (s : Lexer) : Lexer := { s with out := t :: s.out, count := s.count + 1 }

/-- Puts a token behind the first `before` ones. -/
def emitAt (before : Nat) (t : Token) (s : Lexer) : Lexer :=
  let later := s.count - before
  { s with out := s.out.take later ++ t :: s.out.drop later, count := s.count + 1 }

/-- Emits a token of `n` characters. -/
def emitMark (n : Nat) (t : Token) (s : Lexer) : Lexer :=
  { s.emit t with place := s.place.advance n }

/-! ### Indentation -/

/-- Opens a block collection if the column is deeper than the innermost one. -/
def roll (column before : Nat) (t : Token) (s : Lexer) : Lexer :=
  if !s.inFlow && s.depth ≤ column then
    { s.emitAt before t with indents := column :: s.indents }
  else s

/-- Closes the block collections that are deeper than `depth` columns in. -/
def unrollTo (depth : Nat) : List Nat → Lexer → Lexer
  | [], s => { s with indents := [] }
  | n :: rest, s => if depth ≤ n then unrollTo depth rest (s.emit .blockEnd)
      else { s with indents := n :: rest }

/-- Closes the block collections that do not hold the column before `depth`. -/
def unroll (depth : Nat) (s : Lexer) : Lexer :=
  if s.inFlow then s else unrollTo depth s.indents s

/-! ### Keys without a mark -/

/-- Gives up the key that may have begun. -/
def dropKey (s : Lexer) : Option Lexer :=
  match s.keyStart with
  | some k => if k.required then none else some { s with keyStart := none }
  | none => some s

/-- Remembers that a key may begin here. -/
def saveKey (s : Lexer) : Option Lexer :=
  if s.keyAllowed then do
    let required := !s.inFlow && s.indents.head? == some s.place.column
    let s ← s.dropKey
    let c := s.place
    return { s with keyStart := some ⟨required, s.count, c.line, c.column, c.index⟩ }
  else some s

/-- What is left of a place where a key may have begun: a key stays on one line and is not long. -/
def freshKey (c : Cursor) : Option KeyStart → Option (Option KeyStart)
  | none => some none
  | some k =>
      if k.line < c.line || k.index + 1024 < c.index then (if k.required then none else some none)
      else some (some k)

/-- Gives up the places that are too far back. -/
def dropStale (s : Lexer) : Option Lexer := do
  let keyStart ← freshKey s.place s.keyStart
  let outer ← s.outerStarts.mapM (freshKey s.place)
  return { s with keyStart, outerStarts := outer }

/-! ### Single tokens -/

/-- The start of a flow collection. -/
def openFlow (t : Token) (s : Lexer) : Option Lexer := do
  let s ← s.saveKey
  return { s.emitMark 1 t with
    outerStarts := s.keyStart :: s.outerStarts, keyStart := none, keyAllowed := true }

/-- The end of a flow collection. -/
def closeFlow (t : Token) (s : Lexer) : Option Lexer := do
  let s ← s.dropKey
  let s := match s.outerStarts with
    | k :: outer => { s with keyStart := k, outerStarts := outer }
    | [] => s
  return { s.emitMark 1 t with keyAllowed := false }

def flowEntry (s : Lexer) : Option Lexer := do
  let s ← s.dropKey
  return { s.emitMark 1 .flowEntry with keyAllowed := true }

/-- An entry of a block sequence. -/
def blockEntry (s : Lexer) : Option Lexer := do
  guard (s.inFlow || s.keyAllowed)
  let s ← (s.roll s.place.column s.count .blockSequence).dropKey
  return { s.emitMark 1 .blockEntry with keyAllowed := true }

/-- The mark of a key. -/
def key (s : Lexer) : Option Lexer := do
  guard (s.inFlow || s.keyAllowed)
  let s ← (s.roll s.place.column s.count .blockMapping).dropKey
  return { s.emitMark 1 .key with keyAllowed := !s.inFlow }

/-- The mark of a value. It makes a key of what may have been one. -/
def value (s : Lexer) : Option Lexer :=
  match s.keyStart with
  | some k =>
      let s := (s.emitAt k.before .key).roll k.column k.before .blockMapping
      some { s.emitMark 1 .value with keyStart := none, keyAllowed := false }
  | none => do
      guard (s.inFlow || s.keyAllowed)
      let s := s.roll s.place.column s.count .blockMapping
      return { s.emitMark 1 .value with keyAllowed := !s.inFlow }

/-- A token that may begin a key, read from the place. -/
def keyed (read : Cursor → Option (Token × Cursor)) (s : Lexer) : Option Lexer := do
  let s ← s.saveKey
  let (t, c) ← read s.place
  return { s.emit t with place := c, keyAllowed := false }

/-- The name of an anchor or an alias behind its mark. -/
def readName (token : List Char → Token) (c : Cursor) : Option (Token × Cursor) :=
  let (name, c) := c.skip.takeWhile isNameChar
  let ends := atWordEnd c.rest ||
    c.rest.head?.any ['?', ':', ',', ']', '\x7d', '%', '@', '\x60'].contains
  if name.isEmpty || !ends then none else some (token name, c)

/-- A tag and what ends it. -/
def readWholeTag (inFlow : Bool) (c : Cursor) : Option (Token × Cursor) := do
  let (t, c) ← readTag c
  guard (atWordEnd c.rest || (inFlow && c.rest.head? == some ','))
  return (t, c)

def readQuotedToken (single : Bool) (c : Cursor) : Option (Token × Cursor) := do
  let (text, c) ← readQuoted single c.rest [] c.skip
  return (.scalar .quoted text, c)

/-- A plain scalar. A break behind it lets a key begin. -/
def plain (s : Lexer) : Option Lexer := do
  let s ← s.saveKey
  let p ← readPlain s.inFlow s.depth s.place.rest [] {} s.place
  return { s.emit (.scalar .plain p.text) with place := p.behind, keyAllowed := p.broken }

def block (style : ScalarStyle) (s : Lexer) : Option Lexer := do
  let s ← s.dropKey
  let (text, c) ← readBlock (style == .literal) s.depth s.place.skip
  return { s.emit (.scalar style text) with place := c, keyAllowed := true }

def directive (s : Lexer) : Option Lexer := do
  let s ← (s.unroll 0).dropKey
  let (t, c) ← readDirective s.place.skip
  return { s.emit t with place := c, keyAllowed := false }

def documentMark (t : Token) (s : Lexer) : Option Lexer := do
  let s ← (s.unroll 0).dropKey
  return { s.emitMark 3 t with keyAllowed := false }

/-! ### The whole text -/

/-- Goes on to the next token, past blanks, comments and breaks. A tab may not stand where a key may
begin. -/
def toNextToken : (fuel : List Char) → Lexer → Lexer
  | [], s => s
  | _ :: fuel, s =>
    let c := s.place
    let c := if c.index == 0 && c.rest.head? == some '\ufeff' then c.skip else c
    let tabs := s.inFlow || !s.keyAllowed
    let c := (c.skipWhile fun d => d == ' ' || (tabs && d == '\t')).skipComment
    if !c.rest.isEmpty && atLineEnd c.rest then
      toNextToken fuel
        { s with place := c.takeBreak.2, keyAllowed := s.keyAllowed || !s.inFlow }
    else { s with place := c }

/-- The characters that cannot start a plain scalar. -/
def isIndicator (d : Char) : Bool :=
  ['-', '?', ':', ',', '[', ']', '\x7b', '\x7d', '#', '&', '*', '!', '|', '>', '\'', '"', '%', '@',
    '\x60'].contains d

/-- Reads the next token. -/
def next (s : Lexer) : Option Lexer :=
  let c := s.place
  match c.rest with
  | [] => none
  | d :: r =>
    if c.column == 0 && d == '%' then s.directive
    else if c.column == 0 && startsDocumentMark c.rest then
      s.documentMark (if d == '-' then .documentStart else .documentEnd)
    else if d == '[' then s.openFlow .flowSequence
    else if d == '\x7b' then s.openFlow .flowMapping
    else if d == ']' then s.closeFlow .flowSequenceEnd
    else if d == '\x7d' then s.closeFlow .flowMappingEnd
    else if d == ',' then s.flowEntry
    else if d == '-' && atWordEnd r then s.blockEntry
    else if d == '?' && (s.inFlow || atWordEnd r) then s.key
    else if d == ':' && (s.inFlow || atWordEnd r) then s.value
    else if d == '*' then s.keyed (readName .aliasOf)
    else if d == '&' then s.keyed (readName .anchor)
    else if d == '!' then s.keyed (readWholeTag s.inFlow)
    else if d == '|' && !s.inFlow then s.block .literal
    else if d == '>' && !s.inFlow then s.block .folded
    else if d == '\'' then s.keyed (readQuotedToken true)
    else if d == '"' then s.keyed (readQuotedToken false)
    else if d == '-' || ((d == '?' || d == ':') && !s.inFlow) ||
        !(isIndicator d || isBlank d || isBreak d) then s.plain
    else none

/-- The tokens up to the end of the text. -/
def tokens : (fuel : List Char) → Lexer → Option (List Token)
  | fuel, s => do
    let s := s.toNextToken s.place.rest
    let s ← s.dropStale
    let s := s.unroll (s.place.column + 1)
    if s.place.rest.isEmpty then
      let s ← (s.unroll 0).dropKey
      return s.out.reverse
    else
      match fuel with
      | [] => none
      | _ :: fuel =>
        match s.next with
        | none => none
        | some s => tokens fuel s

end Lexer

/-- The tokens of a text. -/
def Token.ofText? (cs : List Char) : Option (List Token) :=
  if cs.all isAllowed then Lexer.tokens cs ⟨⟨cs, 0, 0, 0⟩, [], 0, [], true, none, []⟩ else none

end Promptry.Yaml
