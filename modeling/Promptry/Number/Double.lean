/-!
Binary floating-point numbers of 64 bits, given by their bit pattern, with all arithmetic done on
natural numbers. A finite number is a mantissa times a power of two; `ofRatio` rounds a quotient to
the nearest such number, a tie going to the even mantissa. Main statements: `same_refl` and
`same_comm` on equality of value.
-/

namespace Promptry

/-- A 64-bit binary floating-point number. -/
structure Double where
  bits : UInt64
  deriving DecidableEq, Repr, Inhabited

namespace Double

def negative (d : Double) : Bool := Nat.pow 2 63 ≤ d.bits.toNat

def exponentField (d : Double) : Nat := d.bits.toNat / Nat.pow 2 52 % Nat.pow 2 11

def fractionField (d : Double) : Nat := d.bits.toNat % Nat.pow 2 52

def isFinite (d : Double) : Bool := d.exponentField < 2047

def isNaN (d : Double) : Bool := d.exponentField == 2047 && d.fractionField != 0

def isZero (d : Double) : Bool := d.bits.toNat % Nat.pow 2 63 == 0

/-- Finite, not zero, and with a full mantissa. -/
def isNormal (d : Double) : Bool := 0 < d.exponentField && d.exponentField < 2047

/-- The mantissa of a finite number. -/
def mantissa (d : Double) : Nat :=
  if d.exponentField = 0 then d.fractionField else d.fractionField + Nat.pow 2 52

/-- The power of two that the mantissa is scaled by. -/
def scale (d : Double) : Int :=
  if d.exponentField = 0 then -1074 else (d.exponentField : Int) - 1075

/-- The number with a sign and the other 63 bits. -/
def ofParts (neg : Bool) (rest : Nat) : Double :=
  ⟨UInt64.ofNat ((if neg then Nat.pow 2 63 else 0) + rest % Nat.pow 2 63)⟩

def zero : Double := ofParts false 0

def infinity (neg : Bool) : Double := ofParts neg (2047 * Nat.pow 2 52)

def nan : Double := ofParts false (2047 * Nat.pow 2 52 + Nat.pow 2 51)

/-- The number with mantissa `m ≤ 2 ^ 53` and scale `q`, at least `2 ^ 52` unless `q = -1074`. -/
def ofMantissa (neg : Bool) (m : Nat) (q : Int) : Double :=
  if m < Nat.pow 2 52 then ofParts neg m
  else if q + 1075 + (m / Nat.pow 2 53 : Nat) ≥ 2047 then infinity neg
  else ofParts neg ((q + 1075).toNat * Nat.pow 2 52 + (m - Nat.pow 2 52))

/-- A quotient rounded to the nearest natural number, a tie to the even one. -/
def roundDiv (num den : Nat) : Nat :=
  let m := num / den
  let r := num % den
  if den < 2 * r || (2 * r == den && m % 2 == 1) then m + 1 else m

/-- `num / (den * 2 ^ q)`, rounded. -/
def roundScaled (num den : Nat) (q : Int) : Nat :=
  if 0 ≤ q then roundDiv num (den * Nat.pow 2 q.toNat)
  else roundDiv (num * Nat.pow 2 (-q).toNat) den

/-- The number nearest to `num / den`, a tie to the even mantissa. -/
def ofRatio (neg : Bool) (num den : Nat) : Double :=
  if num = 0 then ofParts neg 0
  else
    let guess : Int := (Nat.log2 num : Int) - Nat.log2 den - 52
    -- the quotient lies between `2 ^ (guess + 51)` and `2 ^ (guess + 53)`
    let q : Int :=
      if 0 ≤ guess then (if num < den * Nat.pow 2 (guess.toNat + 52) then guess - 1 else guess)
      else if num * Nat.pow 2 (-guess).toNat < den * Nat.pow 2 52 then guess - 1 else guess
    let q := max q (-1074)
    ofMantissa neg (roundScaled num den q) q

/-- The number nearest to an integer. -/
def ofInt (i : Int) : Double := ofRatio (i < 0) i.natAbs 1

/-- The number nearest to `digits * 10 ^ exponent`. Exponents far out of range are not computed. -/
def ofDecimal (neg : Bool) (digits : Nat) (exponent : Int) : Double :=
  let size : Int := (Nat.log2 digits : Int) / 4 + exponent
  if digits = 0 then ofParts neg 0
  else if 400 < size then infinity neg
  else if (Nat.log2 digits : Int) / 3 + 1 + exponent < -400 then ofParts neg 0
  else if 0 ≤ exponent then ofRatio neg (digits * Nat.pow 10 exponent.toNat) 1
  else ofRatio neg digits (Nat.pow 10 (-exponent).toNat)

/-- Equality of value: both zeros are equal, and nothing equals a NaN. -/
def same (a b : Double) : Bool :=
  !a.isNaN && !b.isNaN && (a == b || (a.isZero && b.isZero))

/-- The order of the values of two numbers, if neither is a NaN. -/
def compare? (a b : Double) : Option Ordering :=
  if a.isNaN || b.isNaN then none
  else some (Ord.compare (key a) (key b))
where
  /-- Bit patterns without the sign are in the order of the values. -/
  key (d : Double) : Int :=
    let rest : Nat := d.bits.toNat % Nat.pow 2 63
    if d.negative then -(rest : Int) else (rest : Int)

/-- A finite number times `2 ^ 1074`, which is an integer. -/
def scaled (d : Double) : Int :=
  let n : Int := (d.mantissa * Nat.pow 2 (d.scale + 1074).toNat : Nat)
  if d.negative then -n else n

/-- The order of an integer and a number, exactly, unless that is a NaN. -/
def compareInt? (i : Int) (d : Double) : Option Ordering :=
  if d.isNaN then none
  else if d.isFinite then some (Ord.compare (i * Nat.pow 2 1074) d.scaled)
  else some (if d.negative then .gt else .lt)

theorem same_refl {a : Double} (h : a.isNaN = false) : a.same a = true := by
  simp [same, h]

theorem same_comm (a b : Double) : a.same b = b.same a := by
  simp only [same]
  rw [Bool.and_comm (!a.isNaN), BEq.comm, Bool.and_comm a.isZero]

end Double

end Promptry
