import Mathlib.Data.List.Basic
import Promptry.Prompt.Name

/-!
Names and their segments. Taking a name apart at its slashes undoes joining segments. A name is
accepted if and only if all its segments are sound; such a name leads nowhere outside. Main
statements: `segments_join`, `not_leadsOutside` and `checkName_eq_ok_iff`.
-/

namespace Promptry.Name

/-! ### Taking apart and joining -/

theorem not_isNameChar_dot : isNameChar '.' = false := by decide

theorem not_isNameChar_slash : isNameChar '/' = false := by decide

theorem not_isNameChar_backslash : isNameChar '\\' = false := by decide

theorem segments_cons {c : Char} (plain : c ≠ '/') (r : List Char) :
    ∃ s rest, segments r = s :: rest ∧ segments (c :: r) = (c :: s) :: rest := by
  cases here : segments r with
  | nil => exact absurd here (segments_ne_nil r)
  | cons s rest =>
    refine ⟨s, rest, rfl, ?_⟩
    rw [segments]
    · rw [here]
    · exact plain

theorem slash_notMem_of_mem_segments {cs s : List Char} (mem : s ∈ segments cs) : '/' ∉ s := by
  induction cs generalizing s with
  | nil => rw [List.mem_singleton.mp mem]; exact List.not_mem_nil
  | cons c r ih =>
    by_cases slash : c = '/'
    · subst slash
      rcases List.mem_cons.mp mem with rfl | mem
      · exact List.not_mem_nil
      · exact ih mem
    · obtain ⟨first, rest, before, after⟩ := segments_cons slash r
      rw [after] at mem
      rcases List.mem_cons.mp mem with rfl | mem
      · have inside := ih (before ▸ List.mem_cons_self)
        exact List.not_mem_cons_of_ne_of_not_mem (Ne.symm slash) inside
      · exact ih (before ▸ List.mem_cons_of_mem _ mem)

theorem segments_append_slash {s : List Char} (plain : '/' ∉ s) (r : List Char) :
    segments (s ++ '/' :: r) = s :: segments r := by
  induction s with
  | nil => rfl
  | cons c s ih =>
    obtain ⟨first, inside⟩ := not_or.mp (List.mem_cons.not.mp plain)
    obtain ⟨t, rest, before, after⟩ := segments_cons (Ne.symm first) (s ++ '/' :: r)
    rw [ih inside] at before
    cases before
    exact after

theorem segments_of_no_slash {s : List Char} (plain : '/' ∉ s) : segments s = [s] := by
  induction s with
  | nil => rfl
  | cons c s ih =>
    obtain ⟨first, inside⟩ := not_or.mp (List.mem_cons.not.mp plain)
    obtain ⟨t, rest, before, after⟩ := segments_cons (Ne.symm first) s
    rw [ih inside] at before
    cases before
    exact after

/-- What was joined is taken apart again. -/
theorem segments_join {ss : List (List Char)} (some : ss ≠ []) (plain : ∀ s ∈ ss, '/' ∉ s) :
    segments (join ss) = ss := by
  induction ss with
  | nil => exact absurd rfl some
  | cons s ss ih =>
    obtain ⟨here, below⟩ := List.forall_mem_cons.mp plain
    cases ss with
    | nil => exact segments_of_no_slash here
    | cons t rest =>
      rw [join, segments_append_slash here, ih (List.cons_ne_nil t rest) below]
      exact List.cons_ne_nil t rest

theorem intercalate_eq_join (ss : List (List Char)) : ['/'].intercalate ss = join ss := by
  induction ss with
  | nil => rfl
  | cons s ss ih =>
    cases ss with
    | nil => simp [join]
    | cons t rest =>
      rw [List.intercalate_cons_cons, ih, List.append_assoc, List.singleton_append]
      rfl

theorem toList_intercalate_slash (path : List String) :
    ("/".intercalate path).toList = join (path.map String.toList) := by
  rw [String.toList_intercalate, ← intercalate_eq_join]
  rfl

/-! ### Names that are accepted -/

theorem isSegment_iff {cs : List Char} :
    isSegment cs = true ↔ cs ≠ [] ∧ ∀ c ∈ cs, isNameChar c = true := by
  simp [isSegment]

theorem dot_notMem_of_isSegment {cs : List Char} (ok : isSegment cs = true) : '.' ∉ cs :=
  fun mem => by
    have here := (isSegment_iff.mp ok).2 _ mem
    rw [not_isNameChar_dot] at here
    cases here

theorem slash_notMem_of_isSegment {cs : List Char} (ok : isSegment cs = true) : '/' ∉ cs :=
  fun mem => by
    have here := (isSegment_iff.mp ok).2 _ mem
    rw [not_isNameChar_slash] at here
    cases here

theorem eq_slash_or_mem_segments {cs : List Char} {c : Char} (mem : c ∈ cs) :
    c = '/' ∨ ∃ s ∈ segments cs, c ∈ s := by
  induction cs with
  | nil => exact absurd mem List.not_mem_nil
  | cons first r ih =>
    by_cases slash : first = '/'
    · subst slash
      rcases List.mem_cons.mp mem with rfl | mem
      · exact .inl rfl
      · exact (ih mem).imp_right fun ⟨s, inside, here⟩ => ⟨s, List.mem_cons_of_mem _ inside, here⟩
    · obtain ⟨t, rest, before, after⟩ := segments_cons slash r
      rw [after]
      rcases List.mem_cons.mp mem with rfl | mem
      · exact .inr ⟨_, List.mem_cons_self, List.mem_cons_self⟩
      · refine (ih mem).imp_right fun ⟨s, inside, here⟩ => ?_
        rw [before] at inside
        rcases List.mem_cons.mp inside with rfl | inside
        · exact ⟨_, List.mem_cons_self, List.mem_cons_of_mem _ here⟩
        · exact ⟨s, List.mem_cons_of_mem _ inside, here⟩

theorem hasDots_of_no_dot {cs : List Char} (plain : '.' ∉ cs) : hasDots cs = false := by
  induction cs with
  | nil => rfl
  | cons c r ih =>
    obtain ⟨first, inside⟩ := not_or.mp (List.mem_cons.not.mp plain)
    rw [hasDots]
    · exact ih inside
    · rintro r' rfl
      exact absurd rfl first

/-- A name of sound segments cannot lead outside. -/
theorem not_leadsOutside {cs : List Char} (ok : ∀ s ∈ segments cs, isSegment s = true) :
    leadsOutside cs = false := by
  have chars : ∀ c ∈ cs, c = '/' ∨ isNameChar c = true := fun c mem => by
    rcases eq_slash_or_mem_segments mem with slash | ⟨s, inside, here⟩
    · exact .inl slash
    · exact .inr ((isSegment_iff.mp (ok s inside)).2 c here)
  have front : cs.head? ≠ some '/' := fun front => by
    cases cs with
    | nil => cases front
    | cons c r =>
      cases front
      exact (isSegment_iff.mp (ok [] List.mem_cons_self)).1 rfl
  have back : '\\' ∉ cs := fun mem => by
    rcases chars _ mem with slash | char
    · cases slash
    · rw [not_isNameChar_backslash] at char
      cases char
  have dot : '.' ∉ cs := fun mem => by
    rcases chars _ mem with slash | char
    · cases slash
    · rw [not_isNameChar_dot] at char
      cases char
  simp [leadsOutside, front, back, hasDots_of_no_dot dot]

/-- A name is accepted if and only if its segments are sound. -/
theorem checkName_eq_ok_iff {name : String} :
    checkName name = .ok () ↔ ∀ s ∈ segments name.toList, isSegment s = true := by
  constructor
  · intro ok
    unfold checkName at ok
    simp only at ok
    split at ok
    · cases ok
    · split at ok
      · cases ok
      · split at ok
        · next all => exact List.all_eq_true.mp all
        · cases ok
  · intro ok
    have filled : name.toList.isEmpty = false := by
      cases here : name.toList with
      | nil =>
        rw [here] at ok
        exact absurd rfl (isSegment_iff.mp (ok [] List.mem_cons_self)).1
      | cons c r => rfl
    simp only [checkName, filled, not_leadsOutside ok, List.all_eq_true.mpr ok, if_true,
      Bool.false_eq_true, if_false]

end Promptry.Name
