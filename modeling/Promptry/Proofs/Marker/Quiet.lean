import Promptry.Proofs.Marker.Cut
import Promptry.Proofs.Marker.Part

/-!
Texts in which no marker is read. Such a text is one segment, and stays whole when it is cut; so a
text that is put together of quiet stretches, with flow markers between them, is cut into just
these. Main statement: `cut_joined_of_quiet`.
-/

namespace Promptry

namespace Segment

variable {candidate? : List Char → Option (Candidate × List Char)}

/-- Without a marker a text is one segment. -/
theorem scan_of_no_marker (takes : TakesHead candidate?) (literal : List Char) {cs : List Char}
    (none : ∀ m, .marker m ∉ scan candidate? literal cs) :
    scan candidate? literal cs = closeText (cs.reverse ++ literal) [] := by
  induction cs using reading_induction takes generalizing literal with
  | nil => exact scan_nil literal
  | plain c r found ih =>
    rw [scan_cons found] at none ⊢
    rw [ih _ none]
    simp
  | marker written m rest found _ =>
    rw [scan_marker takes found] at none
    exact absurd (by simp) (none m)
  | unknown written rest found ih =>
    rw [scan_unknown takes found] at none ⊢
    rw [ih _ none]
    simp

/-- A text in which nothing has the shape of a marker is read without a marker. -/
theorem scan_of_no_candidate {literal cs : List Char}
    (none : ∀ t, t <:+ cs → t ≠ [] → candidate? t = none) :
    scan candidate? literal cs = closeText (cs.reverse ++ literal) [] := by
  induction cs generalizing literal with
  | nil => exact scan_nil literal
  | cons c cs ih =>
    rw [scan_cons (none _ (List.suffix_refl _) (by simp)),
      ih fun t ends => none t (ends.trans (List.suffix_cons c cs))]
    simp

theorem marker_not_mem_closeText (m : Marker) (literal : List Char) :
    .marker m ∉ closeText literal [] := by
  unfold closeText
  split <;> simp

/-- A text is cut nowhere if no flow marker is read in it. -/
theorem turns_cut_eq_nil (literal : List Char) {cs : List Char}
    (none : ∀ m, .marker m ∉ scan flowCandidate? literal cs) : (cut cs).turns = [] := by
  induction cs using reading_induction flowCandidate?_takesHead generalizing literal with
  | nil => rw [cut_nil]
  | plain c r found ih =>
    rw [scan_cons found] at none
    rw [cut_cons (flowCandidate?_eq_none found)]
    exact ih _ none
  | marker written m rest found _ =>
    rw [scan_marker flowCandidate?_takesHead found] at none
    exact absurd (by simp) (none m)
  | unknown written rest found ih =>
    rw [scan_unknown flowCandidate?_takesHead found] at none
    rw [cut_unknown found]
    exact ih _ none

/-- No marker is read in the text, be it of flow or of a part. -/
structure Quiet (cs : List Char) : Prop where
  flow : ∀ m, .marker m ∉ ofFlow cs
  parts : ∀ m, .marker m ∉ ofParts cs

/-- A text without the opening of a marker is quiet. -/
theorem quiet_of_no_opening {cs : List Char} (free : ¬ opening <:+: cs) : Quiet cs := by
  have nowhere {t : List Char} (ends : t <:+ cs) : ¬ opening <+: t :=
    fun begins => free (begins.isInfix.trans ends.isInfix)
  constructor
  · intro m
    change .marker m ∉ scan flowCandidate? [] cs
    rw [scan_of_no_candidate fun t ends _ => by
      simp [flowCandidate?, behind?_eq_none_iff.mpr (nowhere ends)]]
    exact marker_not_mem_closeText m _
  · intro m
    change .marker m ∉ scan partCandidate? [] cs
    rw [scan_of_no_candidate fun t ends _ => partCandidate?_eq_none (nowhere ends)]
    exact marker_not_mem_closeText m _

namespace Quiet

variable {cs : List Char}

theorem ofParts (quiet : Quiet cs) : ofParts cs = closeText cs.reverse [] := by
  have := scan_of_no_marker partCandidate?_takesHead [] quiet.parts
  rwa [List.append_nil] at this

/-- A quiet text stays whole. -/
theorem cut_eq (quiet : Quiet cs) : cut cs = ⟨cs, []⟩ := by
  have turns := turns_cut_eq_nil [] quiet.flow
  have joined := cut_joined cs
  rw [Cut.joined, turns, List.flatMap_nil, List.append_nil] at joined
  cases h : cut cs
  simp_all

end Quiet

end Segment

/-- Quiet stretches with flow markers between them are what their text is cut into. -/
theorem cut_joined_of_quiet {c : Cut} (quiet : ∀ s ∈ c.stretches, Segment.Quiet s) :
    cut c.joined = c := by
  induction c using Cut.shape_induction with
  | stretch s =>
    have here : Segment.Quiet s := quiet s (by simp [Cut.stretches])
    rw [Cut.joined, List.flatMap_nil, List.append_nil]
    exact here.cut_eq
  | turn s f c ih =>
    have here : Segment.Quiet s := quiet s (by simp [Cut.stretches, Cut.behind, Cut.lead])
    have later : ∀ s ∈ c.stretches, Segment.Quiet s := fun t mem =>
      quiet t (List.mem_cons_of_mem _ (by simpa [Cut.stretches, Cut.behind, Cut.lead] using mem))
    have opens : Segment.opening <+: f.written ++ c.joined :=
      f.opening_prefix_written.trans (List.prefix_append _ _)
    rw [Cut.joined_lead, Cut.joined_behind, cut_append_opening s opens, cut_written, ih later,
      here.cut_eq, Cut.stretch_append]

end Promptry
