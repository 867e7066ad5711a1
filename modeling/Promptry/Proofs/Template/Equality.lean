import Promptry.Proofs.Number.Rounding
import Promptry.Template.Render

/-!
Blocks on the equality of two values. Which branch is rendered is settled by the helper alone. Two
integers that 64 bits hold are compared exactly if both are below `2 ^ 63`; if one is not, they are
compared as floating-point numbers, and those from there on are multiples of 2048, so that different
integers count as equal (`confuses_integers`). Main statements: `valuesEqual_iff_takenAsEqual`,
`render_block_of_branch` and `equalityBlocks_of_integers`.
-/

namespace Promptry.Template

/-! ### Integers taken for equal -/

namespace Helper

/-- What 64 bits hold, with a sign or without. -/
def IsWord (i : Int) : Prop := -2 ^ 63 ≤ i ∧ i < 2 ^ 64

instance (i : Int) : Decidable (IsWord i) := inferInstanceAs (Decidable (_ ∧ _))

/-- As a floating-point number `i` becomes `2048 * m`, where such numbers are as far apart as that,
or at their lower end. Half-way numbers go to the even multiple. -/
def RoundsTo (m i : Int) : Prop :=
  if 2 ^ 63 ≤ i then (i - 2048 * m).natAbs < 1024 ∨ (i - 2048 * m).natAbs = 1024 ∧ m % 2 = 0
  else m = 2 ^ 52 ∧ 2 ^ 63 - 512 ≤ i

instance (m i : Int) : Decidable (RoundsTo m i) := inferInstanceAs (Decidable (ite _ _ _))

/-- Two integers are equal, or one of them is from `2 ^ 63` on and they become one number. -/
def TakenAsEqual (i j : Int) : Prop :=
  i = j ∨ 2 ^ 63 ≤ max i j ∧ ∃ m, RoundsTo m i ∧ RoundsTo m j

open Double

/-- The value of the floating-point number nearest to an integer. -/
def valueOf (i : Int) : Int := signed (decide (i < 0)) (nearest i.natAbs)

variable {i j : Int}

theorem valueOf_of_nonneg (positive : 0 ≤ i) : valueOf i = (nearest i.natAbs : Nat) := by
  have sign : decide (i < 0) = false := by simp [positive]
  rw [valueOf, sign]
  rfl

/-- From `2 ^ 63` on, numbers are rounded to multiples of 2048. -/
theorem valueOf_high (low : 2 ^ 63 ≤ i) (high : i < 2 ^ 64) :
    valueOf i = 2048 * (roundDiv i.natAbs 2048 : Nat) := by
  have digits : i.natAbs.log2 = 52 + 11 := (Nat.log2_eq_iff (by omega)).mpr ⟨by omega, by omega⟩
  rw [valueOf_of_nonneg (by omega), nearest_of_log2 digits]
  simp

theorem roundsTo_high (low : 2 ^ 63 ≤ i) {m : Int} :
    RoundsTo m i ↔ m = (roundDiv i.natAbs 2048 : Nat) := by
  obtain ⟨n, rfl⟩ := Int.eq_ofNat_of_zero_le (by omega : 0 ≤ i)
  rw [RoundsTo, if_pos low, roundDiv_eq, Int.natAbs_natCast]
  split <;> omega

/-- Below `2 ^ 63`, only the last numbers are rounded up to it. -/
theorem valueOf_low (least : -2 ^ 63 ≤ i) (less : i < 2 ^ 63) :
    valueOf i ≤ 2 ^ 63 ∧ (valueOf i = 2 ^ 63 ↔ 2 ^ 63 - 512 ≤ i) := by
  rcases lt_or_ge i 0 with negative | positive
  · have sign : decide (i < 0) = true := by simp [negative]
    rw [valueOf, sign, signed, if_pos rfl]
    omega
  obtain ⟨n, rfl⟩ := Int.eq_ofNat_of_zero_le positive
  rw [valueOf_of_nonneg positive, Int.natAbs_natCast]
  rcases lt_or_ge n (2 ^ 62) with small | great
  · have bound : nearest n ≤ 2 ^ (52 + 10) := nearest_le (by omega)
    omega
  · have digits : n.log2 = 52 + 10 := (Nat.log2_eq_iff (by omega)).mpr ⟨by omega, by omega⟩
    rw [nearest_of_log2 digits, roundDiv_eq]
    split <;> omega

theorem roundsTo_low (less : i < 2 ^ 63) {m : Int} :
    RoundsTo m i ↔ m = 2 ^ 52 ∧ 2 ^ 63 - 512 ≤ i := by
  rw [RoundsTo, if_neg (by omega)]

/-- A number from `2 ^ 63` on becomes the number that another one becomes if and only if both are
rounded to one multiple of 2048. -/
theorem valueOf_eq_iff (hi : IsWord i) (hj : IsWord j) (great : 2 ^ 63 ≤ i) :
    valueOf i = valueOf j ↔ ∃ m, RoundsTo m i ∧ RoundsTo m j := by
  simp only [roundsTo_high great, exists_eq_left]
  have low : 2 ^ 52 ≤ roundDiv i.natAbs 2048 := le_roundDiv (by omega) (by decide)
  rw [valueOf_high great hi.2]
  rcases lt_or_ge j (2 ^ 63) with less | more
  · obtain ⟨most, top⟩ := valueOf_low hj.1 less
    rw [roundsTo_low less]
    omega
  · rw [valueOf_high more hj.2, roundsTo_high more]
    omega

theorem fits_iff (hi : IsWord i) : numbersEqual.fits i = true ↔ i < 2 ^ 63 := by
  have least := hi.1
  simp only [numbersEqual.fits, Nat.pow_eq, Bool.and_eq_true, decide_eq_true_eq]
  omega

/-- Integers are compared exactly if both are below `2 ^ 63`, else as floating-point numbers. -/
theorem numbersEqual_int (hi : IsWord i) (hj : IsWord j) :
    numbersEqual (.int i) (.int j) = true ↔
      if i < 2 ^ 63 ∧ j < 2 ^ 63 then i = j else valueOf i = valueOf j := by
  have fit : (numbersEqual.fits i && numbersEqual.fits j) = true ↔ i < 2 ^ 63 ∧ j < 2 ^ 63 := by
    rw [Bool.and_eq_true, fits_iff hi, fits_iff hj]
  obtain ⟨least, most⟩ := hi
  obtain ⟨least', most'⟩ := hj
  rw [numbersEqual]
  by_cases both : i < 2 ^ 63 ∧ j < 2 ^ 63
  · rw [if_pos (fit.mpr both), if_pos both, beq_iff_eq]
  · rw [if_neg (mt fit.mp both), if_neg both]
    exact same_ofInt_iff (by omega) (by omega)

/-- Integers that 64 bits hold are taken as equal if they are, or if one of them is from `2 ^ 63` on
and both are rounded to one multiple of 2048. -/
theorem valuesEqual_iff_takenAsEqual (hi : IsWord i) (hj : IsWord j) :
    valuesEqual (.num (.int i)) (.num (.int j)) = true ↔ TakenAsEqual i j := by
  rw [valuesEqual, numbersEqual_int hi hj, TakenAsEqual, le_max_iff]
  by_cases both : i < 2 ^ 63 ∧ j < 2 ^ 63
  · rw [if_pos both]
    omega
  · rw [if_neg both]
    have rounded : valueOf i = valueOf j ↔ ∃ m, RoundsTo m i ∧ RoundsTo m j := by
      rcases lt_or_ge i (2 ^ 63) with less | great
      · rw [eq_comm, valueOf_eq_iff hj hi (by omega)]
        simp only [and_comm]
      · exact valueOf_eq_iff hi hj great
    rw [← rounded]
    constructor
    · exact fun same => .inr ⟨by omega, same⟩
    · rintro (rfl | ⟨-, same⟩)
      · rfl
      · exact same

/-- Below `2 ^ 63` no integers are confused. -/
theorem takenAsEqual_iff_eq (hi : i < 2 ^ 63) (hj : j < 2 ^ 63) : TakenAsEqual i j ↔ i = j := by
  rw [TakenAsEqual, le_max_iff]
  omega

end Helper

/-! ### Blocks that take one branch -/

section

variable {lib : Library} {rec : Include} {p : Place}

/-- Renders one branch as a block, or nothing if the block has no such branch. -/
def takes (lib : Library) (rec : Include) (p : Place) (fresh : Bool)
    (branch : Option (List Element)) : Action := fun st => do
  let before := st.sheet
  let inside :=
    { st with sheet := (before.enter (before.fresh || (fresh && before.lineEnded))).put [] }
  let st ← match branch with
    | some els => renderAll lib rec p els { inside with current := none }
    | none => .ok inside
  return { st with sheet := st.sheet.leave before }

/-- The elements of a branch. -/
def branchOf (body : List Element) (inverse : Option (List Element)) :
    Branch → Option (List Element)
  | .body => some body
  | .inverse => inverse

/-- A block renders the branch that its helper answers with. -/
theorem render_block_of_branch {head : Head} {body : List Element} {inverse : Option (List Element)}
    {call : Call} {helper : Helper} {b : Branch} (fresh : Bool)
    (known : lib.helper? head.name = some helper)
    (called : callOf p head.params inverse.isSome (evaluateAll lib p head.args) = .ok call)
    (answer : helper call = .ok (Helper.branch b)) :
    render lib rec p (.block head fresh body inverse) =
      takes lib rec p fresh (branchOf body inverse b) := by
  funext st
  rw [render, callHelper]
  simp only [called, known, answer, takes, bind, Except.bind]
  cases b with
  | body => simp [Helper.branch, carryOut, branchOf, Place.push]
  | inverse => cases inverse <;> simp [Helper.branch, carryOut, branchOf, Place.push]

/-- A block with the helper `ifEquals` or `unlessEquals` on two integers that 64 bits hold. The
integers are compared exactly below `2 ^ 63`; if one is from there on, all that are rounded to one
multiple of 2048 count as equal. -/
theorem equalityBlocks_of_integers {i j : Int} (hi : Helper.IsWord i) (hj : Helper.IsWord j)
    (noIf : lib.helpers.lookup "ifEquals" = none)
    (noUnless : lib.helpers.lookup "unlessEquals" = none)
    {args : Arguments} {params : List String} {body : List Element}
    {inverse : Option (List Element)} {call : Call}
    (called : callOf p params inverse.isSome (evaluateAll lib p args) = .ok call)
    (two : call.params = [.num (.int i), .num (.int j)]) (fresh : Bool) :
    let ifEquals := render lib rec p (.block ⟨"ifEquals", args, params⟩ fresh body inverse)
    let unlessEquals := render lib rec p (.block ⟨"unlessEquals", args, params⟩ fresh body inverse)
    (Helper.valuesEqual (.num (.int i)) (.num (.int j)) = true ↔ Helper.TakenAsEqual i j) ∧
      (i < 2 ^ 63 → j < 2 ^ 63 → (Helper.TakenAsEqual i j ↔ i = j)) ∧
      (Helper.TakenAsEqual i j → ifEquals = takes lib rec p fresh (some body) ∧
        unlessEquals = takes lib rec p fresh inverse) ∧
      (¬ Helper.TakenAsEqual i j → ifEquals = takes lib rec p fresh inverse ∧
        unlessEquals = takes lib rec p fresh (some body)) := by
  intro ifEquals unlessEquals
  have equal := Helper.valuesEqual_iff_takenAsEqual hi hj
  have knownIf : lib.helper? "ifEquals" = some Helper.ifEqualsHelper := by
    rw [Library.helper?, noIf]
    rfl
  have knownUnless : lib.helper? "unlessEquals" = some Helper.unlessEqualsHelper := by
    rw [Library.helper?, noUnless]
    rfl
  have compared : Helper.comparison? call =
      some (Helper.valuesEqual (.num (.int i)) (.num (.int j))) := by
    rw [Helper.comparison?, two]
  refine ⟨equal, Helper.takenAsEqual_iff_eq, fun same => ?_, fun other => ?_⟩
  · have answer : Helper.comparison? call = some true :=
      compared.trans (congrArg some (equal.mpr same))
    have ifAnswer : Helper.ifEqualsHelper call = .ok (Helper.branch .body) := by
      simp [Helper.ifEqualsHelper, answer]
    have unlessAnswer : Helper.unlessEqualsHelper call = .ok (Helper.branch .inverse) := by
      simp [Helper.unlessEqualsHelper, answer]
    exact ⟨render_block_of_branch fresh knownIf called ifAnswer,
      render_block_of_branch fresh knownUnless called unlessAnswer⟩
  · have answer : Helper.comparison? call = some false :=
      compared.trans (congrArg some (Bool.eq_false_iff.mpr (mt equal.mp other)))
    have ifAnswer : Helper.ifEqualsHelper call = .ok (Helper.branch .inverse) := by
      simp [Helper.ifEqualsHelper, answer]
    have unlessAnswer : Helper.unlessEqualsHelper call = .ok (Helper.branch .body) := by
      simp [Helper.unlessEqualsHelper, answer]
    exact ⟨render_block_of_branch fresh knownIf called ifAnswer,
      render_block_of_branch fresh knownUnless called unlessAnswer⟩

end

/-- The last integer below `2 ^ 63` and `2 ^ 63` itself count as equal. -/
theorem equalityBlocks_of_integers_close :
    (Helper.IsWord (2 ^ 63 - 1) ∧ Helper.IsWord (2 ^ 63)) ∧
      Helper.TakenAsEqual (2 ^ 63 - 1) (2 ^ 63) ∧
      ∀ rec p body inverse,
        let close : Arguments :=
          [(none, .literal (.num (.int (2 ^ 63 - 1)))), (none, .literal (.num (.int (2 ^ 63))))]
        render {} rec p (.block ⟨"ifEquals", close, []⟩ false body inverse) =
            takes {} rec p false (some body) ∧
          render {} rec p (.block ⟨"unlessEquals", close, []⟩ false body inverse) =
            takes {} rec p false inverse := by
  have first : Helper.IsWord (2 ^ 63 - 1) := by decide
  have second : Helper.IsWord (2 ^ 63) := by decide
  have close : Helper.TakenAsEqual (2 ^ 63 - 1) (2 ^ 63) :=
    .inr ⟨by decide, 2 ^ 52, by decide, by decide⟩
  refine ⟨⟨first, second⟩, close, fun rec p body inverse => ?_⟩
  exact (equalityBlocks_of_integers first second rfl rfl rfl rfl false).2.2.1 close

/-- A block that shows whether two values are equal. -/
def equalityBlock : String :=
  "\x7b\x7b#ifEquals a b\x7d\x7dsame\x7b\x7belse\x7d\x7ddifferent\x7b\x7b/ifEquals\x7d\x7d"

/-- `2 ^ 63` and the number behind it are different and count as equal. -/
theorem confuses_integers :
    (Helper.IsWord (2 ^ 63) ∧ Helper.IsWord (2 ^ 63 + 1) ∧ (2 ^ 63 : Int) ≠ 2 ^ 63 + 1) ∧
      Helper.valuesEqual (.num (.int (2 ^ 63))) (.num (.int (2 ^ 63 + 1))) = true ∧
      (renderSource {} equalityBlock
        (.obj [("a", .num (.int (2 ^ 63))), ("b", .num (.int (2 ^ 63 + 1)))])).toOption =
          some "same" :=
  ⟨⟨by decide, by decide, by decide⟩, by decide +kernel, by decide +kernel⟩

end Promptry.Template
