import Promptry.Number.Double
import Promptry.Text.Hex
import Promptry.Yaml.Token.Basic

/-!
What the text of a scalar means: null, a truth value, an integer, a floating-point number, or just
itself. Leading zeros make a text of what looks like a number. Integers take 64 bits; those that
take up to 128 are refused, and still larger ones are floating-point numbers.
-/

namespace Promptry.Yaml

inductive Scalar where
  | null
  | bool (b : Bool)
  | int (i : Int)
  | float (d : Double)
  | text (s : String)
  deriving DecidableEq, Repr

namespace Scalar

def isNullWord (s : String) : Bool := ["~", "null", "Null", "NULL"].contains s

def bool? (s : String) : Option Bool :=
  if ["true", "True", "TRUE"].contains s then some true
  else if ["false", "False", "FALSE"].contains s then some false
  else none

/-! ### Numbers -/

def unsigned (cs : List Char) : List Char :=
  match cs with
  | '+' :: r => r
  | '-' :: r => r
  | r => r

/-- Digits behind a leading zero. -/
def isZeroLed (cs : List Char) : Bool :=
  match unsigned cs with
  | '0' :: d :: r => (d :: r).all Char.isDigit
  | _ => false

/-- The value of digits below a base. -/
def digits? (base : Nat) (ds : List Char) : Option Nat :=
  if ds.isEmpty then none
  else ds.foldlM (fun n c =>
    match Text.hexDigit? c with
    | some v => if v < base then some (n * base + v) else none
    | none => none) 0

/-- The value of a number without a sign: decimal, or with the mark of another base. -/
def magnitude? : List Char → Option Nat
  | '0' :: 'x' :: ds => digits? 16 ds
  | '0' :: 'o' :: ds => digits? 8 ds
  | '0' :: 'b' :: ds => digits? 2 ds
  | ds => digits? 10 ds

/-- An integer of any size. -/
def integer? (cs : List Char) : Option Int :=
  if isZeroLed cs then none
  else
    match cs with
    | '-' :: ds => (magnitude? ds).map fun n => -(n : Int)
    | '+' :: ds => (magnitude? ds).map fun n => (n : Int)
    | ds => (magnitude? ds).map fun n => (n : Int)

/-- Whether an integer takes `n` bits, a sign included if there is one. -/
def fits (n : Nat) (i : Int) : Bool :=
  if i < 0 then i.natAbs ≤ Nat.pow 2 (n - 1) else i.natAbs < Nat.pow 2 n

/-- The exponent of a number, behind its digits. -/
def exponent? : List Char → Option Int
  | [] => some 0
  | c :: r =>
    if c == 'e' || c == 'E' then
      match r with
      | '-' :: ds => (digits? 10 ds).map fun n => -(n : Int)
      | '+' :: ds => (digits? 10 ds).map fun n => (n : Int)
      | ds => (digits? 10 ds).map fun n => (n : Int)
    else none

/-- A decimal number with at least one digit, if it is not out of range. -/
def decimal? (neg : Bool) (cs : List Char) : Option Double := do
  let whole := cs.takeWhile Char.isDigit
  let (fraction, rest) := match cs.dropWhile Char.isDigit with
    | '.' :: r => (r.takeWhile Char.isDigit, r.dropWhile Char.isDigit)
    | r => ([], r)
  let n ← digits? 10 (whole ++ fraction)
  let e ← exponent? rest
  let d := Double.ofDecimal neg n (e - fraction.length)
  if d.isFinite then some d else none

def isInfinityWord (cs : List Char) : Bool := [".inf", ".Inf", ".INF"].contains (String.ofList cs)

/-- A floating-point number, infinite ones and the one that is none included. -/
def float? (cs : List Char) : Option Double :=
  if [".nan", ".NaN", ".NAN"].contains (String.ofList cs) then some Double.nan
  else
    match cs with
    | '-' :: r => if isInfinityWord r then some (Double.infinity true) else decimal? true r
    | '+' :: r => if isInfinityWord r then some (Double.infinity false) else decimal? false r
    | r => if isInfinityWord r then some (Double.infinity false) else decimal? false r

/-- An integer of 64 bits. -/
def int? (cs : List Char) : Option Int :=
  match integer? cs with
  | some i => if fits 64 i then some i else none
  | none => none

/-- Whether a text is an integer that is too large to be one and too small to be anything else. -/
def isRefused (cs : List Char) : Bool :=
  match integer? cs with
  | some i => !fits 64 i && fits 128 i
  | none => false

/-! ### Scalars -/

/-- What a plain scalar means. -/
def resolve (s : String) : Option Scalar :=
  let cs := s.toList
  if s.isEmpty || isNullWord s then some .null
  else
    match bool? s with
    | some b => some (.bool b)
    | none =>
      match int? cs with
      | some i => some (.int i)
      | none =>
        if isRefused cs then none
        else if isZeroLed cs then some (.text s)
        else
          match float? cs with
          | some d => some (.float d)
          | none => some (.text s)

/-- What a scalar with a tag of the standard means. Of other tags the text counts. -/
def ofTag (name : String) (s : String) : Option Scalar :=
  match name with
  | "tag:yaml.org,2002:bool" => (bool? s).map .bool
  | "tag:yaml.org,2002:int" => (int? s.toList).map .int
  | "tag:yaml.org,2002:float" => (float? s.toList).map .float
  | "tag:yaml.org,2002:null" => if isNullWord s then some .null else none
  | _ => some (.text s)

/-- What a scalar means by the way it was written, its tag apart. -/
def ofStyle (style : ScalarStyle) (s : String) : Option Scalar :=
  match style with
  | .plain => resolve s
  | _ => some (.text s)

/-- What a scalar means. -/
def read? (tag : Option String) (style : ScalarStyle) (s : String) : Option Scalar :=
  match tag with
  | some name => ofTag name s
  | none => ofStyle style s

end Scalar

/-- The name in a local tag, one that starts with an exclamation mark. -/
def localTag? (tag : Option String) : Option String :=
  match tag.map String.toList with
  | some ('!' :: name) => some (String.ofList name)
  | _ => none

end Promptry.Yaml
