import Promptry.Proofs.Marker.Cut
import Promptry.Proofs.Marker.Part

/-!
Segments that stand one behind the other in a text. Texts in which nothing opens and markers that
are read as what they are can be told apart again: nothing of them is taken for a marker of flow
(`Stands.cut_append`), and cutting the text at its part markers gives the segments back
(`Stands.ofParts`).
-/

namespace Promptry.Segment

/-- No marker of flow is read as a marker of a part. -/
theorem partCandidate?_flow (f : Flow) (r : List Char) :
    partCandidate? (f.written ++ r) = none := by
  cases f with
  | history => rfl
  | role r => cases r <;> rfl

/-- The segments stand one behind the other in the text. No text stands behind another, and nothing
opens within a segment. -/
inductive Stands : List Segment → List Char → Prop where
  | nil : Stands [] []
  | text {s cs : List Char} {segments : List Segment} : Text.isBlankText s = false →
      ¬ opening <:+: s → (cs = [] ∨ opening <+: cs) → Stands segments cs →
      Stands (.text (String.ofList s) :: segments) (s ++ cs)
  | marker {inside cs : List Char} {m : Marker} {segments : List Segment} :
      ¬ opening <:+: inside →
      (∀ r, partCandidate? (wrapped inside ++ r) = some (⟨wrapped inside, some m⟩, r)) →
      Stands segments cs → Stands (.marker m :: segments) (wrapped inside ++ cs)

theorem ne_nil_of_not_blank {s : List Char} (notBlank : Text.isBlankText s = false) : s ≠ [] := by
  rintro rfl
  cases notBlank

theorem opening_prefix_wrapped (inside r : List Char) : opening <+: wrapped inside ++ r := by
  rw [wrapped, List.append_assoc, List.append_assoc]
  exact List.prefix_append _ _

namespace Stands

variable {segments : List Segment} {cs : List Char}

theorem isBlankText (h : Stands segments cs) (ne : segments ≠ []) :
    Text.isBlankText cs = false := by
  cases h with
  | nil => exact absurd rfl ne
  | text notBlank _ _ _ =>
    rw [Text.isBlankText, List.all_append, ← Text.isBlankText, notBlank, Bool.false_and]
  | marker _ _ _ =>
    have lt : '<' ∈ opening := by decide
    apply Bool.eq_false_iff.mpr
    intro blank
    have := List.all_eq_true.mp blank '<' (by simp [wrapped, lt])
    exact absurd this (by decide)

/-! ### Flow -/

/-- A text of standing segments holds no flow marker, whatever other marker follows it. -/
theorem cut_append (h : Stands segments cs) {v : List Char} (follows : v = [] ∨ opening <+: v) :
    cut (cs ++ v) = (cut v).lead cs := by
  induction h with
  | nil => simp
  | @text s cs segments _ free next _ ih =>
    have opens : cs ++ v = [] ∨ opening <+: cs ++ v := by
      rcases next with rfl | opens
      · exact follows
      · exact .inr (opens.trans (List.prefix_append cs v))
    rw [List.append_assoc, cut_lead, ih, Cut.lead_lead]
    intro p q split hq
    have freeEnd : ¬ opening <:+: q := fun inside =>
      free (split ▸ inside.trans (List.suffix_append p q).isInfix)
    exact Flow.at?_eq_none_of_not_opening (not_opening_prefix_append freeEnd hq opens)
  | @marker inside cs m segments free read _ ih =>
    have other : Flow.at? (wrapped inside ++ (cs ++ v)) = none := by
      -- the marker is read as one of a part, so it is none of flow
      apply Flow.at?_eq_none_iff.mpr
      rintro f ⟨r, whole⟩
      have candidate := read (cs ++ v)
      rw [← whole, partCandidate?_flow] at candidate
      cases candidate
    rw [List.append_assoc, cut_wrapped free other, ih, Cut.lead_lead]

/-! ### Parts -/

theorem scan_text {s : List Char} (free : ¬ opening <:+: s) (next : cs = [] ∨ opening <+: cs)
    (literal : List Char) :
    scan partCandidate? literal (s ++ cs) = scan partCandidate? (s.reverse ++ literal) cs := by
  induction s generalizing literal with
  | nil => rfl
  | cons c s ih =>
    have plain := partCandidate?_eq_none (not_opening_prefix_append free (by simp) next)
    have freeEnd : ¬ opening <:+: s := fun inside =>
      free (inside.trans (List.suffix_cons c s).isInfix)
    rw [List.cons_append] at plain ⊢
    rw [scan_cons plain, ih freeEnd]
    simp

/-- A marker ends the text in front of it. -/
theorem scan_next (h : Stands segments cs) (next : cs = [] ∨ opening <+: cs)
    (literal : List Char) : scan partCandidate? literal cs =
      closeText literal [] ++ scan partCandidate? [] cs := by
  cases h with
  | nil => simp [scan_nil, closeText]
  | text notBlank free follows _ =>
    have ne := ne_nil_of_not_blank notBlank
    rcases next with empty | opens
    · exact absurd (List.append_eq_nil_iff.mp empty).1 ne
    · exact absurd opens (not_opening_prefix_append free ne follows)
  | marker _ read _ =>
    rw [scan_marker partCandidate?_takesHead (read _) literal,
      scan_marker partCandidate?_takesHead (read _) []]
    simp [closeText]

/-- Standing segments are what the text is cut into. -/
theorem ofParts (h : Stands segments cs) : ofParts cs = segments := by
  change scan partCandidate? [] cs = segments
  induction h with
  | nil => simp [scan_nil, closeText]
  | text notBlank free next rest ih =>
    rw [scan_text free next, rest.scan_next next, ih]
    simp [closeText, ne_nil_of_not_blank notBlank]
  | marker _ read _ ih =>
    rw [scan_marker partCandidate?_takesHead (read _), ih]
    simp [closeText]

end Stands

end Promptry.Segment
