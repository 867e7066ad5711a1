import Promptry.Number.Double
import Mathlib.Order.Monotone.Basic
import Mathlib.Tactic.Ring

/-!
What floating-point numbers are worth, and which one an integer of 64 bits becomes. All finite
numbers are multiples of `2 ^ -1074`, so that values are integers and no fractions are needed. The
bits without the sign are in the order of the values; so finite numbers are equal if and only if
they have one value, and two integers become equal numbers if and only if they are rounded to one
value. Main statements: `same_iff_scaled`, `ofInt_spec` and `same_ofInt_iff`.
-/

namespace Promptry.Double

/-! ### Values -/

/-- The value of 63 bits without a sign, times `2 ^ 1074`. -/
def magnitude (rest : Nat) : Nat :=
  if rest / 2 ^ 52 = 0 then rest % 2 ^ 52
  else (rest % 2 ^ 52 + 2 ^ 52) * 2 ^ (rest / 2 ^ 52 - 1)

theorem magnitude_lt_succ (rest : Nat) : magnitude rest < magnitude (rest + 1) := by
  have fraction : rest % 2 ^ 52 < 2 ^ 52 := Nat.mod_lt _ (by decide)
  rcases Nat.lt_or_ge (rest % 2 ^ 52 + 1) (2 ^ 52) with inside | full
  · -- the exponent stays
    have exponent : (rest + 1) / 2 ^ 52 = rest / 2 ^ 52 := by omega
    have next : (rest + 1) % 2 ^ 52 = rest % 2 ^ 52 + 1 := by omega
    rw [magnitude, magnitude, exponent, next]
    split
    · omega
    · exact Nat.mul_lt_mul_of_pos_right (by omega) (Nat.two_pow_pos _)
  · -- the fraction is full, so that the exponent goes up
    have exponent : (rest + 1) / 2 ^ 52 = rest / 2 ^ 52 + 1 := by omega
    have next : (rest + 1) % 2 ^ 52 = 0 := by omega
    have last : rest % 2 ^ 52 = 2 ^ 52 - 1 := by omega
    rw [magnitude, magnitude, exponent, next, last, if_neg (Nat.succ_ne_zero _),
      Nat.add_sub_cancel]
    split
    · next zero => rw [zero]; decide
    · next some =>
      obtain ⟨e, up⟩ := Nat.exists_eq_succ_of_ne_zero some
      rw [up, Nat.succ_sub_one, Nat.succ_eq_add_one, Nat.pow_succ]
      have := Nat.two_pow_pos e
      omega

theorem magnitude_strictMono : StrictMono magnitude := strictMono_nat_of_lt_succ magnitude_lt_succ

theorem magnitude_eq_zero_iff {rest : Nat} : magnitude rest = 0 ↔ rest = 0 :=
  magnitude_strictMono.injective.eq_iff' (by decide)

/-- The bits of a number without its sign. -/
def rest (d : Double) : Nat := d.bits.toNat % 2 ^ 63

theorem exponentField_eq (d : Double) : d.exponentField = d.rest / 2 ^ 52 := by
  rw [exponentField, rest]
  simp only [Nat.pow_eq]
  omega

theorem fractionField_eq (d : Double) : d.fractionField = d.rest % 2 ^ 52 := by
  rw [fractionField, rest]
  simp only [Nat.pow_eq]
  omega

theorem scaled_eq (d : Double) :
    d.scaled = if d.negative then -(magnitude d.rest : Int) else magnitude d.rest := by
  have value : d.mantissa * 2 ^ (d.scale + 1074).toNat = magnitude d.rest := by
    rw [mantissa, scale, magnitude, exponentField_eq, fractionField_eq]
    split
    · simp
    · have exponent : ((d.rest / 2 ^ 52 : Nat) - 1075 + 1074 : Int).toNat =
          d.rest / 2 ^ 52 - 1 := by omega
      rw [exponent, Nat.pow_eq]
  simp only [scaled, Nat.pow_eq, value]

theorem bits_eq (d : Double) :
    d.bits.toNat = (if d.negative then 2 ^ 63 else 0) + d.rest := by
  have bound := d.bits.toNat_lt
  rw [rest, negative]
  simp only [Nat.pow_eq, decide_eq_true_eq]
  split <;> omega

theorem isZero_iff (d : Double) : d.isZero = true ↔ d.rest = 0 := by
  simp [isZero, rest]

theorem isNaN_of_isFinite {d : Double} (finite : d.isFinite = true) : d.isNaN = false := by
  rw [isFinite, decide_eq_true_eq] at finite
  simp [isNaN, Nat.ne_of_lt finite]

/-- Finite numbers are equal if and only if they have the same value. -/
theorem same_iff_scaled {a b : Double} (ha : a.isFinite = true) (hb : b.isFinite = true) :
    a.same b = true ↔ a.scaled = b.scaled := by
  have bits : a = b ↔ a.negative = b.negative ∧ a.rest = b.rest := by
    constructor
    · rintro rfl
      exact ⟨rfl, rfl⟩
    · rintro ⟨sign, rest⟩
      have both : a.bits.toNat = b.bits.toNat := by rw [bits_eq, bits_eq, sign, rest]
      cases a
      cases b
      exact congrArg mk (UInt64.toNat_inj.mp both)
  have injective := magnitude_strictMono.injective.eq_iff (a := a.rest) (b := b.rest)
  have zero := @magnitude_eq_zero_iff a.rest
  have zero' := @magnitude_eq_zero_iff b.rest
  simp only [same, isNaN_of_isFinite ha, isNaN_of_isFinite hb, Bool.not_false, Bool.true_and,
    Bool.or_eq_true, beq_iff_eq, Bool.and_eq_true, isZero_iff, bits, scaled_eq]
  cases a.negative <;> cases b.negative <;> simp <;> omega

/-! ### Rounding -/

theorem rest_ofParts (neg : Bool) {n : Nat} (small : n < 2 ^ 63) : (ofParts neg n).rest = n := by
  rw [ofParts, rest, UInt64.toNat_ofNat', Nat.pow_eq]
  cases neg <;> simp <;> omega

theorem negative_ofParts (neg : Bool) (n : Nat) : (ofParts neg n).negative = neg := by
  rw [ofParts, negative, UInt64.toNat_ofNat', Nat.pow_eq]
  cases neg <;> simp <;> omega

/-- A number with a sign. -/
def signed (neg : Bool) (n : Nat) : Int := if neg then -n else n

theorem scaled_ofParts (neg : Bool) {n : Nat} (small : n < 2 ^ 63) :
    (ofParts neg n).scaled = signed neg (magnitude n) := by
  rw [scaled_eq, rest_ofParts neg small, negative_ofParts neg n, signed]

theorem isFinite_ofParts (neg : Bool) {n : Nat} (small : n < 2047 * 2 ^ 52) :
    (ofParts neg n).isFinite = true := by
  rw [isFinite, exponentField_eq, rest_ofParts neg (by omega), decide_eq_true_eq]
  omega

/-- What a mantissa and a scale stand for, as long as they are not too great. -/
theorem ofMantissa_spec (neg : Bool) {m : Nat} {e : Nat} (full : 2 ^ 52 ≤ m) (bound : m ≤ 2 ^ 53)
    (inside : e < 2000) :
    (ofMantissa neg m ((e : Int) - 1074)).isFinite = true ∧
      (ofMantissa neg m ((e : Int) - 1074)).scaled = signed neg (m * 2 ^ e) := by
  have exponent : ((e : Int) - 1074 + 1075).toNat = e + 1 := by omega
  have carry : m / 2 ^ 53 ≤ 1 := by omega
  have parts : ofMantissa neg m ((e : Int) - 1074) =
      ofParts neg ((e + 1) * 2 ^ 52 + (m - 2 ^ 52)) := by
    rw [ofMantissa, exponent]
    simp only [Nat.pow_eq]
    rw [if_neg (by omega), if_neg (by omega)]
  have value : magnitude ((e + 1) * 2 ^ 52 + (m - 2 ^ 52)) = m * 2 ^ e := by
    rw [magnitude]
    rcases Nat.lt_or_ge m (2 ^ 53) with less | most
    · have up : ((e + 1) * 2 ^ 52 + (m - 2 ^ 52)) / 2 ^ 52 = e + 1 := by omega
      have fraction : ((e + 1) * 2 ^ 52 + (m - 2 ^ 52)) % 2 ^ 52 + 2 ^ 52 = m := by omega
      rw [up, fraction, if_neg (Nat.succ_ne_zero _), Nat.add_sub_cancel]
    · have up : ((e + 1) * 2 ^ 52 + (m - 2 ^ 52)) / 2 ^ 52 = e + 2 := by omega
      have fraction : ((e + 1) * 2 ^ 52 + (m - 2 ^ 52)) % 2 ^ 52 = 0 := by omega
      have whole : m = 2 ^ 53 := by omega
      rw [up, fraction, if_neg (Nat.succ_ne_zero _), whole]
      change (0 + 2 ^ 52) * 2 ^ (e + 1) = 2 ^ 53 * 2 ^ e
      rw [Nat.pow_succ]
      ring
  rw [parts]
  exact ⟨isFinite_ofParts neg (by omega), by rw [scaled_ofParts neg (by omega), value]⟩

/-- A quotient is rounded up behind the middle, and in the middle if it is odd. -/
theorem roundDiv_eq (n k : Nat) : roundDiv n k =
    if k < 2 * (n % k) ∨ 2 * (n % k) = k ∧ n / k % 2 = 1 then n / k + 1 else n / k := by
  simp only [roundDiv, Bool.or_eq_true, Bool.and_eq_true, decide_eq_true_eq, beq_iff_eq]

theorem roundDiv_one (n : Nat) : roundDiv n 1 = n := by
  simp [roundDiv, Nat.mod_one]

theorem roundDiv_zero (k : Nat) : roundDiv 0 k = 0 := by
  simp [roundDiv]

/-- The natural number that has the value of the floating-point number nearest to `n`. -/
def nearest (n : Nat) : Nat := 2 ^ (n.log2 - 52) * roundDiv n (2 ^ (n.log2 - 52))

theorem roundDiv_le {n k m : Nat} (le : n ≤ m * k) : roundDiv n k ≤ m := by
  rw [roundDiv_eq]
  rcases Nat.lt_or_ge (n / k) m with less | most
  · split <;> omega
  · -- the quotient is `m`, and nothing remains
    have quotient : n / k ≤ m := Nat.div_le_of_le_mul (by rw [Nat.mul_comm]; exact le)
    have product : m * k ≤ k * (n / k) := by
      rw [Nat.mul_comm]
      exact Nat.mul_le_mul_left k most
    have whole := Nat.div_add_mod n k
    have none : n % k = 0 := by omega
    rw [none]
    split
    · next up =>
      rcases Nat.eq_zero_or_pos k with rfl | pos
      · rw [Nat.div_zero] at up
        omega
      · omega
    · exact quotient

theorem le_roundDiv {n k m : Nat} (le : m * k ≤ n) (pos : 0 < k) : m ≤ roundDiv n k := by
  have quotient : m ≤ n / k := (Nat.le_div_iff_mul_le pos).mpr le
  rw [roundDiv_eq]
  split <;> omega

/-- The values of finite numbers are multiples of `2 ^ -places`. -/
def places : Nat := 1074

/-- The mantissa and the scale of the number nearest to a natural number. -/
theorem exists_ofMantissa (neg : Bool) {n : Nat} (filled : n ≠ 0) (inside : n < 2 ^ 64) :
    ∃ m e : Nat, 2 ^ 52 ≤ m ∧ m ≤ 2 ^ 53 ∧ e < 2000 ∧
      ofRatio neg n 1 = ofMantissa neg m ((e : Int) - 1074) ∧
      m * 2 ^ e = nearest n * 2 ^ places := by
  have least : 2 ^ n.log2 ≤ n := Nat.log2_self_le filled
  have most : n < 2 ^ (n.log2 + 1) := Nat.lt_log2_self
  have digits : n.log2 < 64 := (Nat.log2_lt filled).mpr inside
  have one : Nat.log2 1 = 0 := by decide
  rcases Nat.lt_or_ge n.log2 52 with short | long
  · -- the number is its mantissa, up to a power of two
    obtain ⟨k, short⟩ := Nat.exists_eq_add_of_le (Nat.le_of_lt short)
    have exact : nearest n = n := by
      have none : n.log2 - 52 = 0 := by omega
      rw [nearest, none, Nat.pow_zero, roundDiv_one, Nat.one_mul]
    have low : 2 ^ 52 ≤ n * 2 ^ k := by
      rw [short, Nat.pow_add]
      exact Nat.mul_le_mul_right _ least
    have high : n * 2 ^ k ≤ 2 ^ 53 := by
      have top : 2 ^ 53 = 2 ^ (n.log2 + 1) * 2 ^ k := by
        rw [← Nat.pow_add]
        congr 1
        omega
      rw [top]
      exact Nat.mul_le_mul_right _ most.le
    refine ⟨n * 2 ^ k, 1074 - k, low, high, by omega, ?_, ?_⟩
    · have guess : (n.log2 : Int) - (0 : Nat) - 52 = -k := by omega
      have scale : ((1074 - k : Nat) : Int) - 1074 = -k := by omega
      have shift : (- -(k : Int)).toNat = k := by omega
      have positive : ¬ (0 : Int) ≤ -k := by omega
      rw [ofRatio, if_neg filled, one, scale]
      simp only [guess, Nat.pow_eq, shift, if_neg positive, Nat.one_mul,
        if_neg (Nat.not_lt.mpr low)]
      rw [max_eq_left (by omega), roundScaled, if_neg positive, Nat.pow_eq, shift, roundDiv_one]
    · have all : k + (1074 - k) = places := by
        rw [places]
        omega
      rw [exact, Nat.mul_assoc, ← Nat.pow_add, all]
  · obtain ⟨k, long⟩ := Nat.exists_eq_add_of_le long
    have low : 2 ^ 52 ≤ roundDiv n (2 ^ k) :=
      le_roundDiv (by rw [← Nat.pow_add, ← long]; exact least) (Nat.two_pow_pos _)
    have high : roundDiv n (2 ^ k) ≤ 2 ^ 53 := by
      refine roundDiv_le ?_
      rw [← Nat.pow_add]
      refine most.le.trans (Nat.pow_le_pow_right (by decide) (by omega))
    have step : n.log2 - 52 = k := by omega
    refine ⟨roundDiv n (2 ^ k), 1074 + k, low, high, by omega, ?_, ?_⟩
    · have guess : (n.log2 : Int) - (0 : Nat) - 52 = k := by omega
      have scale : ((1074 + k : Nat) : Int) - 1074 = k := by omega
      have positive : (0 : Int) ≤ k := by omega
      have least' : ¬ n < 2 ^ (k + 52) := by
        rw [Nat.add_comm, ← long]
        exact Nat.not_lt.mpr least
      rw [ofRatio, if_neg filled, one, scale]
      simp only [guess, Nat.pow_eq, Int.toNat_natCast, if_pos positive, Nat.one_mul, if_neg least']
      rw [max_eq_left (by omega), roundScaled, if_pos positive, Nat.pow_eq, Int.toNat_natCast,
        Nat.one_mul]
    · have all : 1074 + k = k + places := by
        rw [places]
        omega
      rw [nearest, step, all, Nat.pow_add, Nat.mul_comm (2 ^ k) (roundDiv _ _), Nat.mul_assoc]

theorem ofInt_spec {i : Int} (inside : i.natAbs < 2 ^ 64) :
    (ofInt i).isFinite = true ∧
      (ofInt i).scaled = signed (decide (i < 0)) (nearest i.natAbs * 2 ^ places) := by
  rw [ofInt]
  rcases eq_or_ne i.natAbs 0 with zero | filled
  · rw [zero, ofRatio, if_pos rfl]
    refine ⟨isFinite_ofParts _ (by decide), ?_⟩
    rw [scaled_ofParts _ (by decide), nearest, roundDiv_zero, Nat.mul_zero, Nat.zero_mul]
    rfl
  · obtain ⟨m, e, low, high, small, made, value⟩ :=
      exists_ofMantissa (decide (i < 0)) filled inside
    rw [made, ← value]
    exact ofMantissa_spec _ low high small

/-- Integers are equal as floating-point numbers if they are rounded to the same number. -/
theorem same_ofInt_iff {i j : Int} (hi : i.natAbs < 2 ^ 64) (hj : j.natAbs < 2 ^ 64) :
    (ofInt i).same (ofInt j) = true ↔
      signed (decide (i < 0)) (nearest i.natAbs) = signed (decide (j < 0)) (nearest j.natAbs) := by
  obtain ⟨finite, value⟩ := ofInt_spec hi
  obtain ⟨finite', value'⟩ := ofInt_spec hj
  have scale (neg : Bool) (n unit : Nat) : signed neg (n * unit) = signed neg n * (unit : Int) := by
    cases neg <;> simp [signed]
  have filled : ((2 ^ places : Nat) : Int) ≠ 0 :=
    Int.natCast_ne_zero.mpr (Nat.pos_iff_ne_zero.mp (Nat.pow_pos (by decide)))
  rw [same_iff_scaled finite finite', value, value', scale, scale]
  exact Int.mul_eq_mul_right_iff filled

/-! ### Where rounding leads -/

theorem nearest_of_log2 {n k : Nat} (digits : n.log2 = 52 + k) :
    nearest n = 2 ^ k * roundDiv n (2 ^ k) := by
  rw [nearest, digits, Nat.add_sub_cancel_left]

theorem nearest_le {n k : Nat} (less : n < 2 ^ (52 + k)) : nearest n ≤ 2 ^ (52 + k) := by
  rcases eq_or_ne n 0 with rfl | filled
  · rw [nearest, roundDiv_zero]
    exact Nat.zero_le _
  have digits : n.log2 - 52 ≤ k := by
    have := (Nat.log2_lt filled).mpr less
    omega
  obtain ⟨d, rfl⟩ := Nat.exists_eq_add_of_le digits
  have bound : roundDiv n (2 ^ (n.log2 - 52)) ≤ 2 ^ (52 + d) := by
    refine roundDiv_le ?_
    rw [← Nat.pow_add, Nat.add_assoc, Nat.add_comm d]
    exact less.le
  rw [nearest]
  refine (Nat.mul_le_mul_left _ bound).trans (Nat.le_of_eq ?_)
  rw [← Nat.pow_add]
  congr 1
  omega

end Promptry.Double
