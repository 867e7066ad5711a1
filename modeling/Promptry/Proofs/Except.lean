/-!
What it takes for a computation that may fail to succeed: each of its steps succeeds. Main
statement: `exists_of_bind_eq_ok`.
-/

namespace Promptry

variable {ε ε' α β : Type}

/-- The steps of what succeeded succeeded. -/
theorem exists_of_bind_eq_ok {x : Except ε α} {f : α → Except ε β} {b : β}
    (succeeds : x >>= f = .ok b) : ∃ a, x = .ok a ∧ f a = .ok b := by
  cases x with
  | error err => cases succeeds
  | ok a => exact ⟨a, rfl, succeeds⟩

theorem exists_of_map_eq_ok {f : α → β} {x : Except ε α} {b : β} (succeeds : x.map f = .ok b) :
    ∃ a, x = .ok a ∧ f a = b := by
  cases x with
  | error err => cases succeeds
  | ok a => exact ⟨a, rfl, Except.ok.inj succeeds⟩

theorem mapError_eq_ok_iff {x : Except ε α} {f : ε → ε'} {a : α} :
    x.mapError f = .ok a ↔ x = .ok a := by
  constructor
  · intro succeeds
    cases x with
    | error err => cases succeeds
    | ok b =>
      cases succeeds
      rfl
  · rintro rfl
    rfl

theorem mapM_eq_ok {f : α → Except ε β} {vs : List α} {xs : List β}
    (succeeds : vs.mapM f = .ok xs) : ∀ x ∈ xs, ∃ v, f v = .ok x := by
  induction vs generalizing xs with
  | nil =>
    cases succeeds
    exact nofun
  | cons v vs ih =>
    rw [List.mapM_cons] at succeeds
    obtain ⟨y, first, succeeds⟩ := exists_of_bind_eq_ok succeeds
    obtain ⟨ys, rest, succeeds⟩ := exists_of_bind_eq_ok succeeds
    cases succeeds
    exact List.forall_mem_cons.mpr ⟨⟨v, first⟩, ih rest⟩

end Promptry
