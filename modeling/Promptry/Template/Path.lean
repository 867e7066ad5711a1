import Promptry.Json.Basic

/-!
Paths, the references to data inside a template tag: keys separated by dots or slashes, a key in
square brackets standing for itself, `../` for the enclosing context, `@root.` for the outermost
one and `@` for the variables of the enclosing loop. Reading takes the longest path at the head of
a text. Main statement: `keyName?_of_symbol`.
-/

namespace Promptry.Template

/-- A reader takes something off the head of a text, or refuses. -/
abbrev Reader (α : Type) := List Char → Option (α × List Char)

/-- The blanks that may stand between the tokens of a tag. -/
def isGap (c : Char) : Bool := c == ' ' || c == '\t' || c == '\n' || c == '\r'

def skipGap (cs : List Char) : List Char := cs.dropWhile isGap

/-- The characters of plain names. -/
def isSymbol (c : Char) : Bool :=
  c.isAlphanum || c == '_' || c == '-' || c == '$' || c == ':' || c == '?' || 0x80 ≤ c.toNat

/-- A plain name. -/
def word? : Reader String := fun cs =>
  match cs.takeWhile isSymbol with
  | [] => none
  | w => some (String.ofList w, cs.dropWhile isSymbol)

/-- One step of a path. -/
inductive Step where
  /-- The outermost context. -/
  | root
  /-- A variable of the enclosing loop. -/
  | loop
  /-- The enclosing context. -/
  | up
  | key (name : String)
  deriving DecidableEq, Repr

/-- A path, with the text it was written as. -/
structure Path where
  text : String
  steps : List Step
  deriving DecidableEq, Repr

def isSeparator (c : Char) : Bool := c == '.' || c == '/'

/-- A key at the head of a text, as written and by name: a plain name, or anything between square
brackets. -/
def keyName? : Reader (List Char × String) := fun cs =>
  match cs with
  | '[' :: r =>
      let inner := r.takeWhile (· != ']')
      match r.dropWhile (· != ']') with
      | _ :: rest => some (('[' :: inner ++ [']'], String.ofList inner), rest)
      | [] => none
  | _ => (word? cs).map fun (w, rest) => ((w.toList, w), rest)

theorem keyName?_of_symbol {c : Char} (h : isSymbol c = true) (cs : List Char) :
    keyName? (c :: cs) = (word? (c :: cs)).map fun (w, rest) => ((w.toList, w), rest) := by
  rw [keyName?]
  intro r hr
  obtain ⟨rfl, -⟩ := List.cons.inj hr
  exact absurd h (by decide)

/-- The step of a key; the key `this` stays where it is. -/
def keySteps (name : String) : List Step := if name = "this" then [] else [.key name]

/-- Part of a path: what was written, and the steps it stands for. -/
structure Steps where
  written : List Char := []
  steps : List Step := []

/-- The keys behind the first one, each behind a separator. `fuel` is a text at least as long as
the one that is read. -/
def moreKeys (fuel : List Char) (acc : Steps) (cs : List Char) : Steps × List Char :=
  match fuel, cs with
  | _ :: fuel, c :: r =>
      if isSeparator c then
        match keyName? r with
        | some ((written, name), rest) =>
            moreKeys fuel ⟨acc.written ++ c :: written, acc.steps ++ keySteps name⟩ rest
        | none => (acc, cs)
      else (acc, cs)
  | _, _ => (acc, cs)

/-- The steps up, each with its separator. -/
def upSteps (cs : List Char) : Steps × List Char :=
  match cs with
  | '.' :: '.' :: c :: r =>
      if isSeparator c then
        let (more, rest) := upSteps r
        (⟨'.' :: '.' :: c :: more.written, .up :: more.steps⟩, rest)
      else (⟨[], []⟩, cs)
  | _ => (⟨[], []⟩, cs)

/-- A mark of the current context at the head. -/
def currentMark (cs : List Char) : List Char × List Char :=
  match cs with
  | 't' :: 'h' :: 'i' :: 's' :: c :: r =>
      if isSeparator c then (['t', 'h', 'i', 's', c], r) else ([], cs)
  | '.' :: '/' :: r => (['.', '/'], r)
  | _ => ([], cs)

def rootStep (cs : List Char) : Steps × List Char :=
  match cs with
  | '@' :: 'r' :: 'o' :: 'o' :: 't' :: c :: r =>
      if isSeparator c then (⟨['@', 'r', 'o', 'o', 't', c], [.root]⟩, r) else (⟨[], []⟩, cs)
  | _ => (⟨[], []⟩, cs)

def loopStep (cs : List Char) : Steps × List Char :=
  match cs with
  | '@' :: r => (⟨['@'], [.loop]⟩, r)
  | _ => (⟨[], []⟩, cs)

/-- The path at the head of a text. -/
def path? : Reader Path := fun cs =>
  let (mark, r) := currentMark cs
  let (root, r) := rootStep r
  let (loop, r) := loopStep r
  let (ups, r) := upSteps r
  match keyName? r with
  | none => none
  | some ((written, name), r) =>
    let (keys, rest) := moreKeys r ⟨written, keySteps name⟩ r
    some (⟨String.ofList (mark ++ root.written ++ loop.written ++ ups.written ++ keys.written),
      root.steps ++ loop.steps ++ ups.steps ++ keys.steps⟩, rest)

/-- The loop variable that a path names: how many contexts up, and its name. Further steps are
not followed. -/
def Path.loopVariable? (p : Path) : Option (Nat × String) :=
  match p.steps with
  | .loop :: rest =>
      match rest.dropWhile (· == .up) with
      | .key name :: _ => some ((rest.takeWhile (· == .up)).length, name)
      | _ => none
  | _ => none

end Promptry.Template
