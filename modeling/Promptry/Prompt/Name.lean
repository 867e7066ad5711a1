import Promptry.Text.Alphabet

/-!
Names of prompts and of their variants. A segment is letters, digits, hyphens and underscores; a
variant is one segment, a name is some of them with slashes between. What could lead out of a
directory is told apart from other faults. Main statements: `checkVariant_eq_ok_iff` and
`join_segments`.
-/

namespace Promptry.Name

/-- Why a name or a variant is refused. -/
inductive NameError where
  | empty
  | leadsOutside (name : String)
  | badName (name : String)
  | badVariant (variant : String)
  deriving DecidableEq, Repr

def NameError.message : NameError → String
  | empty => "name cannot be empty"
  | leadsOutside name =>
      "'" ++ name ++ "': absolute paths, backslashes and '..' are not allowed"
  | badName name => "'" ++ name ++ "': only alphanumeric characters, hyphens, underscores and " ++
      "'/' separators allowed"
  | badVariant variant => "variant '" ++ variant ++ "': only alphanumeric characters, hyphens " ++
      "and underscores allowed"

def isNameChar (c : Char) : Bool := Text.isAlphanumeric c || c == '-' || c == '_'

/-- Some characters, all of them for names. -/
def isSegment (cs : List Char) : Bool := !cs.isEmpty && cs.all isNameChar

/-- The parts of a name between its slashes. -/
def segments : List Char → List (List Char)
  | [] => [[]]
  | '/' :: r => [] :: segments r
  | c :: r =>
    match segments r with
    | s :: rest => (c :: s) :: rest
    | [] => [[c]]

/-- Segments with slashes between. -/
def join : List (List Char) → List Char
  | [] => []
  | [s] => s
  | s :: rest => s ++ '/' :: join rest

theorem segments_ne_nil (cs : List Char) : segments cs ≠ [] := by
  unfold segments
  split
  · simp
  · simp
  · split <;> simp

theorem join_cons_cons (c : Char) (s : List Char) (rest : List (List Char)) :
    join ((c :: s) :: rest) = c :: join (s :: rest) := by
  cases rest <;> rfl

/-- Nothing of a name is lost. -/
theorem join_segments (cs : List Char) : join (segments cs) = cs := by
  induction cs with
  | nil => rfl
  | cons c r ih =>
    unfold segments
    split
    · next h => cases h
    · next h =>
      cases h
      cases hs : segments r with
      | nil => exact absurd hs (segments_ne_nil r)
      | cons s rest => rw [join]; rw [← hs, ih]; rfl; simp
    · next h =>
      cases h
      split
      · next s rest hs => rw [join_cons_cons, ← hs, ih]
      · next hs => exact absurd hs (segments_ne_nil r)

/-- Whether two dots stand side by side. -/
def hasDots : List Char → Bool
  | '.' :: '.' :: _ => true
  | _ :: r => hasDots r
  | [] => false

/-- Whether a name could lead out of a directory. -/
def leadsOutside (cs : List Char) : Bool :=
  cs.head? == some '/' || cs.contains '\\' || hasDots cs

def checkName (name : String) : Except NameError Unit :=
  let cs := name.toList
  if cs.isEmpty then .error .empty
  else if leadsOutside cs then .error (.leadsOutside name)
  else if (segments cs).all isSegment then .ok ()
  else .error (.badName name)

def checkVariant (variant : String) : Except NameError Unit :=
  if isSegment variant.toList then .ok () else .error (.badVariant variant)

theorem checkVariant_eq_ok_iff (variant : String) :
    checkVariant variant = .ok () ↔ isSegment variant.toList = true := by
  unfold checkVariant
  split <;> simp [*]

end Promptry.Name
