import Promptry.Json.Printer
import Promptry.Text.Quoted

/-!
Reading typed values out of JSON. A record is read from an object, in the order of its fields and
without regard to keys that it does not know, or from an array that holds its values in the order of
its keys.
-/

namespace Promptry

/-- Why a value does not have the type asked for. -/
inductive DecodeError where
  | wrongType (found : Json) (expected : String)
  | outOfRange (found : Int) (expected : String)
  | unknownVariant (name : String) (known : List String)
  | notOneKey
  | missingField (key : String)
  | duplicateField (key : String)
  /-- An array ends before a value that the record cannot do without. -/
  | tooShort (length : Nat) (record : String) (size : Nat)
  | tooLong (length : Nat)
  /-- An array inside a record that takes the fields of others has items left over. -/
  | leftOver (length size : Nat)
  | noVariant (type : String)
  | notScalar (found : Json)
  deriving Repr

namespace DecodeError

/-- What a message says of a value found. -/
def found : Json → String
  | .null => "null"
  | .bool true => "boolean `true`"
  | .bool false => "boolean `false`"
  | .num (.int i) => "integer `" ++ String.ofList (Number.intText i) ++ "`"
  | .num (.float d) => "floating point `" ++ String.ofList (Json.Number.text (.float d)) ++ "`"
  | .str s => "string " ++ Text.quoted s
  | .arr _ => "sequence"
  | .obj _ => "map"

/-- A number of elements. -/
def elements (n : Nat) : String := toString n ++ (if n = 1 then " element" else " elements")

def message : DecodeError → String
  | wrongType v expected => "invalid type: " ++ found v ++ ", expected " ++ expected
  | outOfRange i expected => "invalid value: " ++ found (.num (.int i)) ++ ", expected " ++ expected
  | unknownVariant name known => "unknown variant `" ++ name ++ "`, expected one of " ++
      ", ".intercalate (known.map fun k => "`" ++ k ++ "`")
  | notOneKey => "invalid value: map, expected map with a single key"
  | missingField key => "missing field `" ++ key ++ "`"
  | duplicateField key => "duplicate field `" ++ key ++ "`"
  | tooShort length record size =>
      "invalid length " ++ toString length ++ ", expected struct " ++ record ++ " with " ++
        elements size
  | tooLong length => "invalid length " ++ toString length ++ ", expected fewer elements in array"
  | leftOver length size =>
      "invalid length " ++ toString length ++ ", expected " ++ elements size ++ " in sequence"
  | noVariant type => "data did not match any variant of untagged enum " ++ type
  | notScalar v => "expected a string, got " ++ v.text

end DecodeError

/-- Reads a typed value. -/
abbrev Decoder (α : Type) := Json → Except DecodeError α

namespace Decoder

def text : Decoder String
  | .str s => .ok s
  | v => .error (.wrongType v "a string")

def fields : Decoder Fields
  | .obj fs => .ok fs
  | v => .error (.wrongType v "a map")

/-- A natural number of 64 bits. -/
def natural : Decoder Nat
  | .num (.int i) => if 0 ≤ i then .ok i.toNat else .error (.outOfRange i "usize")
  | v => .error (.wrongType v "usize")

def list {α : Type} (item : Decoder α) : Decoder (List α)
  | .arr items => items.mapM item
  | v => .error (.wrongType v "a sequence")

/-- A value that may be missing; null counts as missing. -/
def optional {α : Type} (item : Decoder α) : Decoder (Option α)
  | .null => .ok none
  | v => (item v).map some

/-- A scalar, kept as its text. -/
def scalarText : Decoder (Option String)
  | .null => .ok none
  | .str s => .ok (some s)
  | .num n => .ok (some (String.ofList n.text))
  | .bool b => .ok (some (if b then "true" else "false"))
  | v => .error (.notScalar v)

/-- Any value but null. -/
def present : Decoder (Option Json)
  | .null => .ok none
  | v => .ok (some v)

end Decoder

/-- How a record is read: its keys in order, those at the front that it cannot do without, and how
a value is put under a key. -/
structure Shape (α : Type) where
  name : String
  keys : List String
  required : Nat := 0
  /-- Other keys for some of the values. -/
  synonyms : List (String × String) := []
  empty : α
  set : α → String → Decoder α

namespace Shape

variable {α : Type}

/-- The key that a value is kept under. -/
def key (s : Shape α) (k : String) : String := (s.synonyms.lookup k).getD k

/-- Puts the fields of an object into a record; `seen` are the keys of the fields before. -/
def setAll (s : Shape α) (seen : List String) (x : α) : List (String × Json) → Except DecodeError α
  | [] =>
      match (s.keys.take s.required).find? fun k => !seen.contains k with
      | some k => .error (.missingField k)
      | none => .ok x
  | (k, v) :: rest =>
      let k := s.key k
      if !s.keys.contains k then setAll s seen x rest
      else if seen.contains k then .error (.duplicateField k)
      else
        match s.set x k v with
        | .ok x => setAll s (k :: seen) x rest
        | .error e => .error e

/-- Puts the items of an array under the keys in turn. -/
def setInTurn (s : Shape α) (x : α) : List (String × Json) → Except DecodeError α
  | [] => .ok x
  | (k, v) :: rest =>
      match s.set x k v with
      | .ok x => setInTurn s x rest
      | .error e => .error e

/-- Reads a record. `collected` tells that it stands in a record that takes the fields of others. -/
def decode (s : Shape α) (collected : Bool := false) : Decoder α
  | .obj fs => setAll s [] s.empty fs
  | .arr items => do
      let x ← setInTurn s s.empty (s.keys.zip items)
      if items.length < s.required then .error (.tooShort items.length s.name s.keys.length)
      else if s.keys.length < items.length then
        .error (if collected then .leftOver items.length s.keys.length else .tooLong items.length)
      else return x
  | v => .error (.wrongType v ("struct " ++ s.name))

end Shape

/-- Reads a record that takes the fields of another one besides its own value under `key`, which
it cannot do without. -/
def decodeBeside {α β : Type} (name key : String) (own : Decoder α) (rest : Shape β) :
    Decoder (α × β)
  | .obj fs =>
    match Fields.get? fs key with
    | none => .error (.missingField key)
    | some v => do
      let x ← own v
      let y ← rest.decode true (.obj (fs.filter fun f => f.1 != key))
      return (x, y)
  | v => .error (.wrongType v ("struct " ++ name))

/-! ### Writing -/

/-- The field of a value, if it is there. -/
def fieldOf {α : Type} (key : String) (encode : α → Json) (v : Option α) : Fields :=
  match v with
  | some x => [(key, encode x)]
  | none => []

end Promptry
