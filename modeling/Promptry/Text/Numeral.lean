/-!
Numerals: decimal digits, with a plus sign in front if one likes, for numbers of 64 bits. Main
statements: `ofText?_eq_some_iff` and `ofText?_toString`.
-/

namespace Promptry.Numeral

/-- The number that digits stand for. -/
def value (ds : List Char) : Nat := ds.foldl (fun n c => n * 10 + (c.toNat - 48)) 0

/-- The number of some digits, if it has 64 bits. -/
def ofDigits? (ds : List Char) : Option Nat :=
  if ds.isEmpty || !ds.all Char.isDigit then none
  else if value ds < Nat.pow 2 64 then some (value ds)
  else none

/-- The number of a numeral, if it has 64 bits. -/
def ofChars? : List Char → Option Nat
  | '+' :: ds => ofDigits? ds
  | ds => ofDigits? ds

def ofText? (s : String) : Option Nat := ofChars? s.toList

/-! ### What numerals spell -/

/-- Decimal digits that stand for a number, of any size, perhaps behind a plus sign. -/
def Spells (s : String) (n : Nat) : Prop :=
  ∃ ds, (s.toList = ds ∨ s.toList = '+' :: ds) ∧ ds ≠ [] ∧ (∀ c ∈ ds, c.isDigit) ∧ value ds = n

theorem ofDigits?_eq_some_iff {ds : List Char} {n : Nat} :
    ofDigits? ds = some n ↔
      (ds ≠ [] ∧ (∀ c ∈ ds, c.isDigit) ∧ value ds = n) ∧ n < Nat.pow 2 64 := by
  unfold ofDigits?
  split
  · next bad =>
    refine iff_of_false (by simp) fun ⟨⟨nonempty, digits, _⟩, _⟩ => ?_
    simp [nonempty, List.all_eq_true.mpr digits] at bad
  · next good =>
    have shape : ds ≠ [] ∧ ∀ c ∈ ds, c.isDigit := by simpa using good
    split
    · next fits =>
      exact ⟨fun h => by cases h; exact ⟨⟨shape.1, shape.2, rfl⟩, fits⟩, fun h => by rw [h.1.2.2]⟩
    · next large => exact iff_of_false (by simp) fun h => large (h.1.2.2 ▸ h.2)

/-- A plus sign is no digit, so that a numeral is read in one way. -/
theorem ofText?_eq_some_iff {s : String} {n : Nat} :
    ofText? s = some n ↔ Spells s n ∧ n < Nat.pow 2 64 := by
  unfold ofText? ofChars? Spells
  split
  · next ds h =>
    rw [ofDigits?_eq_some_iff, h]
    refine and_congr_left fun _ => ⟨fun spelt => ⟨ds, .inr rfl, spelt⟩, ?_⟩
    rintro ⟨digits, rfl | same, spelt⟩
    · exact absurd (spelt.2.1 '+' List.mem_cons_self) (by decide)
    · cases same
      exact spelt
  · next noPlus =>
    rw [ofDigits?_eq_some_iff]
    refine and_congr_left fun _ => ⟨fun spelt => ⟨_, .inl rfl, spelt⟩, ?_⟩
    rintro ⟨digits, rfl | plus, spelt⟩
    · exact spelt
    · exact absurd plus (noPlus digits)

theorem value_eq_ofDigitChars (ds : List Char) : value ds = Nat.ofDigitChars 10 ds 0 := by
  unfold value Nat.ofDigitChars
  congr 1
  funext n c
  exact congrArg (· + (c.toNat - 48)) (Nat.mul_comm n 10)

/-- What a number prints as spells it. -/
theorem spells_toString (n : Nat) : Spells (toString n) n :=
  ⟨Nat.toDigits 10 n, .inl Nat.toList_repr, Nat.toDigits_ne_nil,
    fun _ mem => Nat.isDigit_of_mem_toDigits (by decide) (by decide) mem,
    (value_eq_ofDigitChars _).trans Nat.ofDigitChars_ten_toDigits⟩

theorem ofText?_toString {n : Nat} (fits : n < Nat.pow 2 64) : ofText? (toString n) = some n :=
  ofText?_eq_some_iff.mpr ⟨spells_toString n, fits⟩

end Promptry.Numeral
