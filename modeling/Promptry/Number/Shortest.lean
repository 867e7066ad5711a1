import Promptry.Number.Double

/-!
The shortest decimal text of a finite floating-point number. A number stands for the interval of
reals that round to it; of the decimals in it the text shows the one on the coarsest decimal grid,
and of several there the nearest. Each grid is tested at the two neighbours of the number itself:
if the interval holds any point of the grid it holds one of these. Main statements:
`onGrid?_mem`, that a decimal which was chosen lies in the interval, and `shortest_spec`.
-/

namespace Promptry.Number

/-- A decimal `digits * 10 ^ exponent`. -/
structure Decimal where
  digits : Nat
  exponent : Int
  deriving DecidableEq, Repr

/-- The reals that round to `mantissa * 2 ^ scale`, as numerators over `4 * den`: from `low` to
`high` around `mid`, ends included when `closed`. -/
structure Interval where
  low : Nat
  mid : Nat
  high : Nat
  den : Nat
  closed : Bool
  deriving Repr

/-- The interval of a mantissa and scale. Below a power of two the next number is half as far. -/
def Interval.ofMantissa (m : Nat) (q : Int) : Interval :=
  let up := if 0 ≤ q then Nat.pow 2 q.toNat else 1
  let den := if 0 ≤ q then 1 else Nat.pow 2 (-q).toNat
  let below := if m = Nat.pow 2 52 && -1074 < q then 1 else 2
  { low := (4 * m - below) * up, mid := 4 * m * up, high := (4 * m + 2) * up, den := den,
    closed := m % 2 == 0 }

namespace Interval

/-- The point `d * 10 ^ k` as a numerator and a factor for the other numerators. -/
def point (k : Int) (d : Nat) : Nat × Nat :=
  if 0 ≤ k then (4 * d * Nat.pow 10 k.toNat, 1) else (4 * d, Nat.pow 10 (-k).toNat)

/-- Whether `d * 10 ^ k` lies in the interval. -/
def holds (i : Interval) (k : Int) (d : Nat) : Bool :=
  let p := (point k d).1 * i.den
  let f := (point k d).2
  if i.closed then i.low * f ≤ p && p ≤ i.high * f else i.low * f < p && p < i.high * f

/-- The neighbour below the number on the grid of `10 ^ k`. -/
def floor (i : Interval) (k : Int) : Nat :=
  if 0 ≤ k then i.mid / (4 * i.den * Nat.pow 10 k.toNat)
  else i.mid * Nat.pow 10 (-k).toNat / (4 * i.den)

/-- Whether `d * 10 ^ k` is as near to the number as its successor or nearer; a tie goes to the
even one. -/
def prefersFloor (i : Interval) (k : Int) (d : Nat) : Bool :=
  let a := (point k d).1 * i.den
  let b := (point k (d + 1)).1 * i.den
  let m := i.mid * (point k d).2
  let below := m - a
  let above := b - m
  below < above || (below == above && d % 2 == 0)

/-- The decimal of the grid of `10 ^ k` that stands for the number, if one does. -/
def onGrid? (i : Interval) (k : Int) : Option Decimal :=
  let d := i.floor k
  let lowHit := d != 0 && i.holds k d
  let highHit := i.holds k (d + 1)
  if lowHit && (!highHit || i.prefersFloor k d) then some ⟨d, k⟩
  else if highHit then some ⟨d + 1, k⟩
  else none

theorem onGrid?_mem {i : Interval} {k : Int} {d : Decimal} (h : i.onGrid? k = some d) :
    d.exponent = k ∧ i.holds k d.digits = true := by
  simp only [onGrid?] at h
  split at h
  · rename_i hc
    cases h
    simp only [Bool.and_eq_true] at hc
    exact ⟨rfl, hc.1.2⟩
  · split at h
    · rename_i hc
      cases h
      exact ⟨rfl, hc⟩
    · cases h

/-- The first hit on the grids `10 ^ k, 10 ^ (k - 1), …`. -/
def search (i : Interval) : Nat → Int → Option Decimal
  | 0, _ => none
  | n + 1, k => (i.onGrid? k).orElse fun _ => i.search n (k - 1)

/-- A chosen decimal lies in the interval, and no coarser grid searched before it had a hit. -/
theorem search_spec {i : Interval} {n : Nat} {k : Int} {d : Decimal}
    (h : i.search n k = some d) :
    i.holds d.exponent d.digits = true ∧
      ∀ j : Int, d.exponent < j → j ≤ k → i.onGrid? j = none := by
  induction n generalizing k with
  | zero => simp [search] at h
  | succ n ih =>
    simp only [search] at h
    cases hk : i.onGrid? k with
    | some e =>
      rw [hk] at h
      cases h
      obtain ⟨he, hm⟩ := onGrid?_mem hk
      rw [he]
      exact ⟨hm, fun j h1 h2 => by omega⟩
    | none =>
      rw [hk] at h
      obtain ⟨hm, hj⟩ := ih h
      refine ⟨hm, fun j h1 h2 => ?_⟩
      by_cases hjk : j = k
      · rw [hjk]; exact hk
      · exact hj j h1 (by omega)

end Interval

/-- The shortest decimal of a positive finite number: the search starts above the number's own
size and goes down to seventeen digits. -/
def shortest (d : Double) : Decimal :=
  let i := Interval.ofMantissa d.mantissa d.scale
  let bits : Int := (Nat.log2 d.mantissa : Int) + d.scale
  -- `10 ^ top` is above the number, by at most three orders of magnitude
  let top : Int := (bits * 1233) / 4096 + 2
  (i.search 22 top).getD ⟨d.mantissa, 0⟩

theorem shortest_spec {d : Double} {e : Decimal}
    (h : (Interval.ofMantissa d.mantissa d.scale).search 22
      (((Nat.log2 d.mantissa : Int) + d.scale) * 1233 / 4096 + 2) = some e) :
    shortest d = e ∧
      (Interval.ofMantissa d.mantissa d.scale).holds e.exponent e.digits = true := by
  refine ⟨?_, (Interval.search_spec h).1⟩
  simp only [shortest, h, Option.getD_some]

/-! ### Layout -/

/-- How a decimal is laid out: positional while the decimal point stands at most `maxWhole` digits
from the left or fewer than `minLeading` places before the first digit, else with an exponent. -/
structure Layout where
  maxWhole : Int
  minLeading : Int
  plusSign : Bool
  deriving Repr

/-- Numbers in JSON text: positional from `0.00001` up to below `1e+16`. -/
def Layout.json : Layout := ⟨16, -5, true⟩

/-- Numbers in YAML text: as in JSON, but an exponent has no plus sign. -/
def Layout.yaml : Layout := ⟨16, -5, false⟩

/-- Decimal digits of a natural number. -/
def natDigits (n : Nat) : List Char := Nat.toDigits 10 n

/-- An integer with a minus sign if it is negative. -/
def intText (i : Int) : List Char :=
  if i < 0 then '-' :: natDigits i.natAbs else natDigits i.natAbs

/-- The text of a positive decimal, always with a fraction or an exponent. -/
def Layout.decimal (layout : Layout) (d : Decimal) : List Char :=
  let ds := natDigits d.digits
  let n : Int := ds.length
  let whole : Int := n + d.exponent
  if 0 ≤ d.exponent && whole ≤ layout.maxWhole then
    ds ++ List.replicate d.exponent.toNat '0' ++ ['.', '0']
  else if 0 < whole && whole ≤ layout.maxWhole then
    ds.take whole.toNat ++ '.' :: ds.drop whole.toNat
  else if layout.minLeading < whole && whole ≤ 0 then
    ['0', '.'] ++ List.replicate (-whole).toNat '0' ++ ds
  else
    let lead := match ds with
      | [c] => [c]
      | c :: r => c :: '.' :: r
      | [] => []
    let e := whole - 1
    lead ++ 'e' :: (if e < 0 then intText e
      else (if layout.plusSign then ['+'] else []) ++ natDigits e.natAbs)

/-- The text of a finite number. -/
def Layout.double (layout : Layout) (d : Double) : List Char :=
  let body := if d.isZero then ['0', '.', '0'] else layout.decimal (shortest d)
  if d.negative then '-' :: body else body

end Promptry.Number
