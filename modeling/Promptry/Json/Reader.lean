import Promptry.Json.Basic
import Promptry.Text.Hex

/-!
Reading JSON text. The grammar is the strict one: no leading zeros, no control characters inside
strings, no lone surrogates, at most 128 open brackets. An integer from `-2^63` up to `2^64 - 1`
stays an integer, and `-0` is a floating-point number. A floating-point number is its first digits
as a 64-bit integer, scaled by the nearest power of ten. The last of several equal keys wins.
-/

namespace Promptry.Json

open Text (hexDigit?)

/-- The blanks that may stand between tokens. -/
def isSpace (c : Char) : Bool := c == ' ' || c == '\n' || c == '\t' || c == '\r'

def skipSpace (cs : List Char) : List Char := cs.dropWhile isSpace

/-! ### Numbers -/

namespace Number

/-- The product of a number and `10 ^ k`, both as floating-point numbers, with `k ≤ 308`. -/
def timesPowerOfTen (d : Double) (k : Nat) : Double :=
  let p := Double.ofDecimal false 1 k
  let q := d.scale + p.scale
  let m := d.mantissa * p.mantissa
  if 0 ≤ q then .ofRatio false (m * Nat.pow 2 q.toNat) 1
  else .ofRatio false m (Nat.pow 2 (-q).toNat)

/-- The quotient of a number and `10 ^ k`, both as floating-point numbers, with `k ≤ 308`. -/
def overPowerOfTen (d : Double) (k : Nat) : Double :=
  let p := Double.ofDecimal false 1 k
  let q := d.scale - p.scale
  if 0 ≤ q then .ofRatio false (d.mantissa * Nat.pow 2 q.toNat) p.mantissa
  else .ofRatio false d.mantissa (p.mantissa * Nat.pow 2 (-q).toNat)

/-- A significand scaled by a power of ten; `none` if it grows out of range. -/
def scaled? (significand : Nat) (exponent : Int) : Option Double :=
  let d := Double.ofRatio false significand 1
  if d.isZero then some d
  else if 0 ≤ exponent then
    if 308 < exponent then none
    else
      let r := timesPowerOfTen d exponent.toNat
      if r.isFinite then some r else none
  else if exponent < -1000 then some (.ofParts false 0)
  else
    -- far below one, the division is done in steps of `10 ^ 308`
    let k := (-exponent).toNat
    let (d, k) := if 308 < k then (overPowerOfTen d 308, k - 308) else (d, k)
    let (d, k) := if 308 < k then (overPowerOfTen d 308, k - 308) else (d, k)
    let (d, k) := if 308 < k then (overPowerOfTen d 308, k - 308) else (d, k)
    some (overPowerOfTen d k)

/-- Digits as they are taken into a 64-bit significand: the digits that no longer fit are counted
instead. -/
def significand : List Char → Nat → Nat × Nat
  | [], acc => (acc, 0)
  | c :: cs, acc =>
      let next := acc * 10 + (c.toNat - 48)
      if Nat.pow 2 64 ≤ next then (acc, cs.length + 1) else significand cs next

def digitsValue (ds : List Char) : Nat := ds.foldl (fun n c => n * 10 + (c.toNat - 48)) 0

/-- The number of a sign, the digits before and behind the point, and an exponent. -/
def ofDigits? (neg : Bool) (whole : List Char) (fraction : Option (List Char))
    (exponent : Option Int) : Option Number :=
  let value := digitsValue whole
  let isInt := fraction.isNone && exponent.isNone
  if isInt && !(neg && value == 0) &&
      (if neg then value ≤ Nat.pow 2 63 else value < Nat.pow 2 64) then
    some (.int (if neg then -(value : Int) else value))
  else
    let (sig, dropped) := significand whole 0
    let frac := fraction.getD []
    -- once a digit did not fit, the digits behind the point no longer count
    let (sig, exp10) : Nat × Int :=
      if dropped != 0 then (sig, dropped)
      else
        let (s, rest) := significand frac sig
        (s, -((frac.length - rest : Nat) : Int))
    (scaled? sig (exp10 + exponent.getD 0)).map fun d =>
      .float (if neg then .ofParts true d.bits.toNat else d)

end Number

/-- The exponent behind a number's digits, if one stands there. -/
def exponentPart? : List Char → Option (Option Int × List Char)
  | c :: cs =>
      if c == 'e' || c == 'E' then
        let (neg, cs) := match cs with
          | '+' :: r => (false, r)
          | '-' :: r => (true, r)
          | r => (false, r)
        let ds := cs.takeWhile Char.isDigit
        if ds.isEmpty then none
        else
          let v : Int := Number.digitsValue ds
          some (some (if neg then -v else v), cs.dropWhile Char.isDigit)
      else some (none, c :: cs)
  | [] => some (none, [])

/-- The fraction behind a number's digits, if one stands there. -/
def fractionPart? : List Char → Option (Option (List Char) × List Char)
  | '.' :: cs =>
      let ds := cs.takeWhile Char.isDigit
      if ds.isEmpty then none else some (some ds, cs.dropWhile Char.isDigit)
  | cs => some (none, cs)

def number? (cs : List Char) : Option (Number × List Char) := do
  let (neg, cs) := match cs with
    | '-' :: r => (true, r)
    | r => (false, r)
  let whole := cs.takeWhile Char.isDigit
  let rest := cs.dropWhile Char.isDigit
  guard (!whole.isEmpty && (whole.length == 1 || whole.head? != some '0'))
  let (fraction, rest) ← fractionPart? rest
  let (exponent, rest) ← exponentPart? rest
  let n ← Number.ofDigits? neg whole fraction exponent
  some (n, rest)

/-! ### Strings -/

def hexFour? (a b c d : Char) : Option Nat := do
  let a ← hexDigit? a
  let b ← hexDigit? b
  let c ← hexDigit? c
  let d ← hexDigit? d
  some (((a * 16 + b) * 16 + c) * 16 + d)

/-- The character of a simple escape. -/
def escapeChar? : Char → Option Char
  | '"' => some '"'
  | '\\' => some '\\'
  | '/' => some '/'
  | 'b' => some '\x08'
  | 'f' => some '\x0c'
  | 'n' => some '\n'
  | 'r' => some '\r'
  | 't' => some '\t'
  | _ => none

/-- The rest of a string behind its opening quote; `acc` holds what was read, last first. -/
def stringBody? (acc : List Char) : List Char → Option (String × List Char)
  | [] => none
  | '"' :: cs => some (String.ofList acc.reverse, cs)
  | '\\' :: 'u' :: a :: b :: c :: d :: cs =>
      match hexFour? a b c d with
      | none => none
      | some hi =>
        if 0xDC00 ≤ hi && hi ≤ 0xDFFF then none
        else if 0xD800 ≤ hi && hi ≤ 0xDBFF then
          match cs with
          | '\\' :: 'u' :: a :: b :: c :: d :: cs =>
            match hexFour? a b c d with
            | none => none
            | some lo =>
              if 0xDC00 ≤ lo && lo ≤ 0xDFFF then
                let code := 0x10000 + (hi - 0xD800) * 0x400 + (lo - 0xDC00)
                stringBody? (Char.ofNat code :: acc) cs
              else none
          | _ => none
        else stringBody? (Char.ofNat hi :: acc) cs
  | '\\' :: c :: cs =>
      match escapeChar? c with
      | some e => stringBody? (e :: acc) cs
      | none => none
  | c :: cs => if c.toNat < 0x20 || c == '\\' then none else stringBody? (c :: acc) cs

/-! ### Values -/

mutual

/-- A value at the head of the text. `fuel` bounds the steps, `depth` the open brackets. -/
def value? (fuel depth : Nat) (cs : List Char) : Option (Json × List Char) :=
  match fuel with
  | 0 => none
  | fuel + 1 =>
    match skipSpace cs with
    | 'n' :: 'u' :: 'l' :: 'l' :: r => some (.null, r)
    | 't' :: 'r' :: 'u' :: 'e' :: r => some (.bool true, r)
    | 'f' :: 'a' :: 'l' :: 's' :: 'e' :: r => some (.bool false, r)
    | '"' :: r => (stringBody? [] r).map fun (s, r) => (.str s, r)
    | '[' :: r =>
        match depth with
        | 0 => none
        | depth + 1 =>
          match skipSpace r with
          | ']' :: r => some (.arr [], r)
          | r => items? fuel depth [] r
    | '\x7b' :: r =>
        match depth with
        | 0 => none
        | depth + 1 =>
          match skipSpace r with
          | '\x7d' :: r => some (.obj [], r)
          | r => members? fuel depth [] r
    | r => (number? r).map fun (n, r) => (.num n, r)

/-- The items of an array up to its bracket; `acc` holds those read, last first. -/
def items? (fuel depth : Nat) (acc : List Json) (cs : List Char) : Option (Json × List Char) :=
  match fuel with
  | 0 => none
  | fuel + 1 =>
    match value? fuel depth cs with
    | none => none
    | some (v, r) =>
      match skipSpace r with
      | ',' :: r => items? fuel depth (v :: acc) r
      | ']' :: r => some (.arr (v :: acc).reverse, r)
      | _ => none

/-- The members of an object up to its bracket; `acc` holds those read, last first. -/
def members? (fuel depth : Nat) (acc : List (String × Json)) (cs : List Char) :
    Option (Json × List Char) :=
  match fuel with
  | 0 => none
  | fuel + 1 =>
    match skipSpace cs with
    | '"' :: r =>
      match stringBody? [] r with
      | none => none
      | some (k, r) =>
        match skipSpace r with
        | ':' :: r =>
          match value? fuel depth r with
          | none => none
          | some (v, r) =>
            match skipSpace r with
            | ',' :: r => members? fuel depth ((k, v) :: acc) r
            | '\x7d' :: r => some (.obj (Fields.ofEntries ((k, v) :: acc).reverse), r)
            | _ => none
        | _ => none
    | _ => none

end

/-- The value that a whole text holds. -/
def ofChars? (cs : List Char) : Option Json :=
  match value? (2 * cs.length + 2) 127 cs with
  | some (v, r) => if (skipSpace r).isEmpty then some v else none
  | none => none

def ofText? (s : String) : Option Json := ofChars? s.toList

end Promptry.Json
