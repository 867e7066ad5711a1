import Promptry.Proofs.Marker.Flow

/-!
A text cut at its flow markers. The cut looks at the text as a whole, and lines play no part in it.
It loses nothing (`cut_joined`) and leaves no marker uncut (`cut_free`). A text can be cut in two
halves wherever no marker stands across the seam (`cut_append`), such as in front of a line feed
(`cut_append_newline`) or of another marker (`cut_append_opening`).
-/

namespace Promptry

/-- A text cut at its flow markers: the stretch in front of the first marker, and each marker with
the stretch behind it. -/
structure Cut where
  first : List Char
  turns : List (Flow × List Char)
  deriving DecidableEq, Repr

namespace Cut

/-- The cut of a text with `s` in front of it. -/
def lead (s : List Char) (c : Cut) : Cut := { c with first := s ++ c.first }

/-- The cut of a text with a marker in front of it. -/
def behind (f : Flow) (c : Cut) : Cut := ⟨[], (f, c.first) :: c.turns⟩

/-- The cut of two texts one behind the other: the last stretch of the one goes on with the first
stretch of the other. -/
def append (c d : Cut) : Cut := go c.first c.turns
where
  go (first : List Char) : List (Flow × List Char) → Cut
    | [] => d.lead first
    | (f, stretch) :: turns => ((go stretch turns).behind f).lead first

/-- The text that was cut. -/
def joined (c : Cut) : List Char := c.first ++ c.turns.flatMap fun t => t.1.written ++ t.2

/-- The stretches between the markers. -/
def stretches (c : Cut) : List (List Char) := c.first :: c.turns.map (·.2)

@[simp] theorem lead_nil (c : Cut) : c.lead [] = c := rfl

@[simp] theorem lead_lead (s t : List Char) (c : Cut) : (c.lead t).lead s = c.lead (s ++ t) := by
  simp [lead]

@[simp] theorem stretch_append (s : List Char) (d : Cut) : append ⟨s, []⟩ d = d.lead s := rfl

@[simp] theorem lead_append (s : List Char) (c d : Cut) :
    (c.lead s).append d = (c.append d).lead s := by
  obtain ⟨first, turns⟩ := c
  cases turns <;> simp [append, append.go, lead]

@[simp] theorem behind_append (f : Flow) (c d : Cut) :
    (c.behind f).append d = (c.append d).behind f := by
  simp [append, append.go, behind, lead]

/-- Every cut is a stretch with nothing or a marker and a cut behind it. -/
theorem shape_induction {motive : Cut → Prop} (stretch : ∀ s, motive ⟨s, []⟩)
    (turn : ∀ s f c, motive c → motive ((c.behind f).lead s)) (c : Cut) : motive c := by
  obtain ⟨first, turns⟩ := c
  induction turns generalizing first with
  | nil => exact stretch first
  | cons t turns ih => simpa [behind, lead] using turn first t.1 ⟨t.2, turns⟩ (ih t.2)

@[simp] theorem append_nil (c : Cut) : c.append ⟨[], []⟩ = c := by
  induction c using shape_induction with
  | stretch s => simp [lead]
  | turn s f c ih => simp [ih]

theorem append_assoc (c d e : Cut) : (c.append d).append e = c.append (d.append e) := by
  induction c using shape_induction with
  | stretch s => simp
  | turn s f c ih => simp [ih]

theorem append_behind (c d : Cut) (f : Flow) :
    c.append (d.behind f) = ⟨c.first, c.turns ++ (f, d.first) :: d.turns⟩ := by
  induction c using shape_induction with
  | stretch s => simp [behind, lead]
  | turn s g c ih =>
    rw [lead_append, behind_append, ih]
    simp [behind, lead]

@[simp] theorem joined_lead (s : List Char) (c : Cut) : (c.lead s).joined = s ++ c.joined := by
  simp [joined, lead]

@[simp] theorem joined_behind (f : Flow) (c : Cut) :
    (c.behind f).joined = f.written ++ c.joined := by
  simp [joined, behind]

end Cut

/-- Cuts a text at its flow markers. -/
def cut (cs : List Char) : Cut :=
  match _found : Flow.at? cs with
  | some (f, rest) => (cut rest).behind f
  | none =>
    match cs with
    | [] => ⟨[], []⟩
    | c :: r => (cut r).lead [c]
termination_by cs.length
decreasing_by
  · have := List.length_pos_iff.mpr f.written_ne_nil
    rw [Flow.at?_eq_some_iff.mp _found, List.length_append]
    omega
  · simp

theorem cut_nil : cut [] = ⟨[], []⟩ := by
  rw [cut]
  rfl

theorem cut_written (f : Flow) (r : List Char) : cut (f.written ++ r) = (cut r).behind f := by
  rw [cut]
  split
  · rename_i g rest found
    cases (Flow.at?_eq_some_iff.mpr rfl).symm.trans found
    rfl
  · rename_i found
    cases (Flow.at?_eq_some_iff.mpr rfl).symm.trans found

theorem cut_cons {c : Char} {r : List Char} (plain : Flow.at? (c :: r) = none) :
    cut (c :: r) = (cut r).lead [c] := by
  rw [cut]
  split
  · rename_i found
    cases plain.symm.trans found
  · rfl

/-- Induction over the markers of a text and the characters between them. -/
theorem cut_induction {motive : List Char → Prop} (nil : motive [])
    (plain : ∀ c r, Flow.at? (c :: r) = none → motive r → motive (c :: r))
    (marker : ∀ (f : Flow) r, motive r → motive (f.written ++ r)) (cs : List Char) : motive cs := by
  induction h : cs.length using Nat.strongRecOn generalizing cs with
  | ind n ih =>
    subst h
    rcases found : Flow.at? cs with _ | ⟨f, rest⟩
    · cases cs with
      | nil => exact nil
      | cons c r => exact plain c r found (ih _ (by simp) r rfl)
    · obtain rfl := Flow.at?_eq_some_iff.mp found
      have := List.length_pos_iff.mpr f.written_ne_nil
      exact marker f rest (ih _ (by rw [List.length_append]; omega) rest rfl)

/-- Nothing is lost. -/
theorem cut_joined (cs : List Char) : (cut cs).joined = cs := by
  induction cs using cut_induction with
  | nil => simp [cut_nil, Cut.joined]
  | plain c r found ih => simp [cut_cons found, ih]
  | marker f r ih => simp [cut_written, ih]

/-- No stretch between the markers holds a marker. -/
theorem cut_free (cs : List Char) :
    ∀ stretch ∈ (cut cs).stretches, ∀ f : Flow, ¬ f.written <:+: stretch := by
  induction cs using cut_induction with
  | nil =>
    intro stretch mem f h
    simp only [cut_nil, Cut.stretches, List.map_nil, List.mem_singleton] at mem
    exact f.written_ne_nil (List.infix_nil.mp (mem ▸ h))
  | plain c r found ih =>
    intro stretch mem f h
    simp only [cut_cons found, Cut.stretches, Cut.lead, List.mem_cons, List.singleton_append] at mem
    rcases mem with rfl | mem
    · rcases List.infix_cons_iff.mp h with h | h
      · -- the stretch begins the text, so the marker would begin it
        have begins : c :: (cut r).first <+: c :: r := by
          refine List.cons_prefix_cons.mpr ⟨rfl, ?_⟩
          conv => rhs; rw [← cut_joined r]
          exact List.prefix_append _ _
        exact Flow.at?_eq_none_iff.mp found f (h.trans begins)
      · exact ih _ (by simp [Cut.stretches]) f h
    · exact ih stretch (List.mem_cons_of_mem _ mem) f h
  | marker g r ih =>
    intro stretch mem f h
    simp only [cut_written, Cut.stretches, Cut.behind, List.map_cons, List.mem_cons] at mem
    rcases mem with rfl | mem
    · exact f.written_ne_nil (List.infix_nil.mp h)
    · exact ih stretch (by simpa [Cut.stretches] using mem) f h

/-! ### Cutting in two -/

/-- Text in which no marker begins stays whole. -/
theorem cut_lead {w v : List Char}
    (free : ∀ s t, w = s ++ t → t ≠ [] → Flow.at? (t ++ v) = none) :
    cut (w ++ v) = (cut v).lead w := by
  induction w with
  | nil => simp
  | cons c w ih =>
    have here := free [] (c :: w) rfl (by simp)
    have later := ih fun s t split ht => free (c :: s) t (by simp [split]) ht
    rw [List.cons_append] at here ⊢
    simp [cut_cons here, later]

/-- What only has the shape of a flow marker goes with the text in front of what follows. -/
theorem cut_unknown {shaped rest cs : List Char}
    (found : Segment.flowCandidate? cs = some (⟨shaped, none⟩, rest)) :
    cut (shaped ++ rest) = (cut rest).lead shaped :=
  cut_lead fun _ _ split ht => Segment.flowCandidate?_unknown found split ht

/-- So does a marker that is none of flow and holds no opening of another. -/
theorem cut_wrapped {inside v : List Char} (free : ¬ Segment.opening <:+: inside)
    (other : Flow.at? (Segment.wrapped inside ++ v) = none) :
    cut (Segment.wrapped inside ++ v) = (cut v).lead (Segment.wrapped inside) := by
  apply cut_lead
  intro s t split ht
  by_cases hs : s = []
  · subst hs
    rwa [split] at other
  · exact Flow.at?_eq_none_of_not_opening
      (Segment.not_opening_prefix_wrapped free split hs ht)

/-- A text may be cut in two halves where no marker stands across the seam. -/
theorem cut_append (u : List Char) {v : List Char}
    (apart : ∀ (f : Flow) (s t : List Char), f.written = s ++ t → s ≠ [] → t ≠ [] → ¬ t <+: v) :
    cut (u ++ v) = (cut u).append (cut v) := by
  induction u using cut_induction with
  | nil => simp [cut_nil]
  | plain c u found ih =>
    have plain : Flow.at? (c :: (u ++ v)) = none := by
      apply Flow.at?_eq_none_iff.mpr
      intro f begins
      rw [← List.cons_append] at begins
      rcases List.prefix_or_prefix_of_prefix begins (List.prefix_append (c :: u) v) with h | ⟨t, ht⟩
      · exact Flow.at?_eq_none_iff.mp found f h
      · by_cases empty : t = []
        · exact Flow.at?_eq_none_iff.mp found f (by simp [← ht, empty])
        · rw [← ht, List.prefix_append_right_inj] at begins
          exact apart f (c :: u) t ht.symm (by simp) empty begins
    simp [cut_cons found, cut_cons plain, ih]
  | marker f u ih => simp [cut_written, ih]

theorem cut_append_newline (u v : List Char) :
    cut (u ++ '\n' :: v) = (cut u).append (cut ('\n' :: v)) := by
  apply cut_append
  intro f s t split _ ht begins
  obtain ⟨c, t, rfl⟩ := List.exists_cons_of_ne_nil ht
  obtain ⟨rfl, -⟩ := List.cons_prefix_cons.mp begins
  exact f.newline_not_mem_written (by simp [split])

theorem cut_newline (v : List Char) : cut ('\n' :: v) = (cut v).lead ['\n'] := by
  apply cut_cons
  apply Flow.at?_eq_none_of_not_opening
  intro begins
  exact absurd (List.cons_prefix_cons.mp begins).1 (by decide)

theorem cut_append_opening (u : List Char) {v : List Char} (opens : Segment.opening <+: v) :
    cut (u ++ v) = (cut u).append (cut v) := by
  apply cut_append
  intro f s t split hs ht begins
  rw [Flow.written_eq_wrapped] at split
  rcases List.prefix_or_prefix_of_prefix begins opens with h | h
  · exact Segment.not_prefix_opening_of_wrapped split ht h
  · exact Segment.not_opening_prefix_wrapped f.inside_free split hs ht
      (h.trans (List.prefix_append t []))

end Promptry
