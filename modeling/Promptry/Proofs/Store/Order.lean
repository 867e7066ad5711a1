import Mathlib.Data.String.Basic
import Promptry.Store.Basic

/-!
The order of references. References without versions are in strict order by name and then by
variant, none first. Main statements: `le_iff`, `le_trans`, `le_total` and `before_of_le`.
-/

namespace Promptry.Reference

/-- The order of variants: none comes first. -/
def variantLt : Option String → Option String → Prop
  | none, some _ => True
  | some a, some b => a < b
  | _, none => False

/-- The strict order of listings, by name and then by variant. -/
def Before (a b : Reference) : Prop :=
  a.name < b.name ∨ a.name = b.name ∧ variantLt a.variant b.variant

theorem optionLe_trans {a b c : Option String} (first : optionLe a b = true)
    (second : optionLe b c = true) : optionLe a c = true := by
  cases a with
  | none => rfl
  | some a =>
    cases b with
    | none => cases first
    | some b =>
      cases c with
      | none => cases second
      | some c =>
        simp only [optionLe, decide_eq_true_eq] at first second ⊢
        exact String.le_trans first second

theorem optionLe_total (a b : Option String) : optionLe a b = true ∨ optionLe b a = true := by
  cases a with
  | none => exact .inl rfl
  | some a =>
    cases b with
    | none => exact .inr rfl
    | some b => simpa [optionLe] using String.le_total a b

theorem variantLt_iff {a b : Option String} : variantLt a b ↔ optionLe a b = true ∧ a ≠ b := by
  cases a with
  | none => cases b <;> simp [variantLt, optionLe]
  | some a =>
    cases b with
    | none => simp [variantLt, optionLe]
    | some b =>
      simp only [variantLt, optionLe, decide_eq_true_eq, ne_eq, Option.some.injEq, lt_iff_le_and_ne]

theorem variantLt_trans {a b c : Option String} (first : variantLt a b) (second : variantLt b c) :
    variantLt a c := by
  cases a with
  | none =>
    cases c with
    | none => cases b <;> cases second
    | some c => trivial
  | some a =>
    cases b with
    | none => cases first
    | some b =>
      cases c with
      | none => cases second
      | some c => exact String.lt_trans first second

/-- Two references are in order if one stands before the other, or they differ in the version. -/
theorem le_iff {a b : Reference} : a.le b = true ↔
    a.Before b ∨ a.name = b.name ∧ a.variant = b.variant ∧ optionLe a.version b.version = true := by
  unfold le Before
  by_cases names : a.name = b.name
  · have irrefl : ¬ b.name < b.name := String.lt_irrefl _
    rw [if_pos names, names, variantLt_iff]
    by_cases variants : a.variant = b.variant
    · rw [if_pos variants]
      simp only [irrefl, variants, ne_eq, not_true_eq_false, and_false, or_false, true_and,
        false_or]
    · rw [if_neg variants]
      simp only [irrefl, variants, ne_eq, not_false_eq_true, and_true, true_and, false_and,
        or_false, false_or]
  · rw [if_neg names, decide_eq_true_eq, lt_iff_le_and_ne]
    simp only [names, ne_eq, not_false_eq_true, and_true, false_and, or_false]

theorem Before.trans {a b c : Reference} (first : a.Before b) (second : b.Before c) :
    a.Before c := by
  rcases first with first | ⟨names, first⟩ <;> rcases second with second | ⟨names', second⟩
  · exact .inl (String.lt_trans first second)
  · exact .inl (names' ▸ first)
  · exact .inl (names ▸ second)
  · exact .inr ⟨names.trans names', variantLt_trans first second⟩

theorem le_trans {a b c : Reference} (first : a.le b = true) (second : b.le c = true) :
    a.le c = true := by
  rw [le_iff] at first second ⊢
  rcases first with first | ⟨names, variants, versions⟩
  · refine .inl ?_
    rcases second with second | ⟨names', variants', -⟩
    · exact first.trans second
    · rwa [Before, ← names', ← variants']
  · rcases second with second | ⟨names', variants', versions'⟩
    · rw [Before, ← names, ← variants] at second
      exact .inl second
    · exact .inr ⟨names.trans names', variants.trans variants', optionLe_trans versions versions'⟩

theorem le_total (a b : Reference) : (a.le b || b.le a) = true := by
  unfold le
  by_cases names : a.name = b.name
  · by_cases variants : a.variant = b.variant
    · simpa [names, variants] using optionLe_total a.version b.version
    · simpa [names, variants, Ne.symm variants] using optionLe_total a.variant b.variant
  · simpa [names, Ne.symm names] using String.le_total a.name b.name

theorem not_before_self (a : Reference) : ¬ a.Before a := by
  rintro (names | ⟨-, variants⟩)
  · exact String.lt_irrefl _ names
  · exact (variantLt_iff.mp variants).2 rfl

/-- Different references without versions that are in order stand one before the other. -/
theorem before_of_le {a b : Reference} (le : a.le b = true) (ne : a ≠ b) (first : a.version = none)
    (second : b.version = none) : a.Before b := by
  rcases le_iff.mp le with before | ⟨names, variants, -⟩
  · exact before
  · refine absurd ?_ ne
    cases a
    cases b
    simp only at names variants first second
    rw [names, variants, first, second]

end Promptry.Reference
