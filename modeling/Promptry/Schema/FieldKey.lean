import Promptry.Text.Blank

/-!
The keys of a schema shorthand. Besides a name, a key says that its field is optional, by a question
mark behind the name, and how its value is meant, by a word in parentheses, with a description
behind a comma.
-/

namespace Promptry.Schema

/-- How the value under a key is meant. -/
inductive Form where
  | plain
  | array
  | object
  | enumeration
  | unknown (word : String)
  deriving DecidableEq, Repr

structure FieldKey where
  name : String
  optional : Bool
  form : Form
  description : Option String
  deriving DecidableEq, Repr

/-- The texts before and behind the first occurrence of a character. -/
def splitFirst? (sep : Char) (cs : List Char) : Option (List Char × List Char) :=
  match cs.dropWhile (· != sep) with
  | _ :: rest => some (cs.takeWhile (· != sep), rest)
  | [] => none

/-- A word, and a description behind the first comma, if there is one in it. -/
def splitDescription (cs : List Char) : String × Option String :=
  match splitFirst? ',' cs with
  | some (word, description) =>
    let description := Text.trim description
    (String.ofList (Text.trim word),
      if description.isEmpty then none else some (String.ofList description))
  | none => (String.ofList (Text.trim cs), none)

/-- Drops a character at the end, if it is there. -/
def dropLast? (c : Char) (cs : List Char) : Option (List Char) :=
  if cs.getLast? = some c then some cs.dropLast else none

/-- The form that a word names. -/
def Form.ofWord (word : String) : Form :=
  if word = "array" then .array
  else if word = "object" then .object
  else if word = "enum" then .enumeration
  else .unknown word

/-- The name of a key and whether its field is optional. -/
def nameOf (cs : List Char) : String × Bool :=
  match dropLast? '?' cs with
  | some name => (String.ofList name, true)
  | none => (String.ofList cs, false)

def FieldKey.ofText (key : String) : FieldKey :=
  match splitFirst? '(' key.toList with
  | some (front, inside) =>
    let (name, optional) := nameOf front
    let (word, description) := splitDescription ((dropLast? ')' inside).getD inside)
    ⟨name, optional, .ofWord word, description⟩
  | none =>
    let (name, optional) := nameOf key.toList
    ⟨name, optional, .plain, none⟩

end Promptry.Schema
