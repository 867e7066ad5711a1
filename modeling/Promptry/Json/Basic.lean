import Promptry.Number.Double
import Promptry.Table

/-!
JSON values. An object is a list of fields in the order in which their keys first appeared, which is
the order they are written in. A number is an integer or a floating-point number, and stays what it
was read as.
-/

namespace Promptry

/-- An integer, or a number written with a fraction or an exponent. -/
inductive Json.Number where
  | int (i : Int)
  | float (d : Double)
  deriving DecidableEq, Repr, Inhabited

inductive Json where
  | null
  | bool (b : Bool)
  | num (n : Json.Number)
  | str (s : String)
  | arr (items : List Json)
  | obj (fields : List (String × Json))
  deriving Repr, Inhabited

/-- The fields of an object, in order. -/
abbrev Fields := Table Json

namespace Fields

export Table (get? contains keys insert merge ofEntries get?_nil get?_insert_self
  get?_insert_of_ne get?_eq_none_iff keys_insert)

end Fields

namespace Json

/-- The number of an integer. -/
def ofInt (i : Int) : Json := .num (.int i)

def ofNat (n : Nat) : Json := .num (.int n)

/-- The kind of a value, as messages name it. -/
def kindName : Json → String
  | .null => "null"
  | .bool _ => "boolean"
  | .num _ => "number"
  | .str _ => "string"
  | .arr _ => "array"
  | .obj _ => "object"

def asText? : Json → Option String
  | .str s => some s
  | _ => none

def asFields? : Json → Option Fields
  | .obj fs => some fs
  | _ => none

namespace Number

/-- The number as a floating-point number, rounded if need be. -/
def toDouble : Number → Double
  | .int i => .ofInt i
  | .float d => d

/-- Equality of numbers that were read alike. -/
def same : Number → Number → Bool
  | .int a, .int b => a == b
  | .float a, .float b => a.same b
  | _, _ => false

/-- The order of the values of two numbers, exactly. -/
def compare? : Number → Number → Option Ordering
  | .int a, .int b => some (compare a b)
  | .float a, .float b => a.compare? b
  | .int a, .float b => Double.compareInt? a b
  | .float a, .int b => (Double.compareInt? b a).map Ordering.swap

end Number

mutual

/-- Equality of values: numbers only with numbers read alike, objects without regard to the order
of their fields. -/
def same : Json → Json → Bool
  | .null, .null => true
  | .bool a, .bool b => a == b
  | .num a, .num b => a.same b
  | .str a, .str b => a == b
  | .arr as, .arr bs => sameItems as bs
  | .obj as, .obj bs => as.length == bs.length && sameFields as bs
  | _, _ => false

def sameItems : List Json → List Json → Bool
  | [], [] => true
  | a :: as, b :: bs => a.same b && sameItems as bs
  | _, _ => false

/-- Whether every field has an equal one of its key among `others`. -/
def sameFields : List (String × Json) → List (String × Json) → Bool
  | [], _ => true
  | (k, a) :: as, others =>
      (match Fields.get? others k with
        | some b => a.same b
        | none => false) && sameFields as others

end

end Json

end Promptry
