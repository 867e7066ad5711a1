import Promptry.Marker.Segment

/-!
Where a marker can begin. The opening of a marker shares no end with its own beginning and holds no
`>`, so it cannot begin inside a marker, nor in the text in front of one and go on into it. Main
statements: `not_opening_prefix_wrapped`, for places inside a marker, and
`not_opening_prefix_append`, for places in a text in front of a marker.
-/

namespace Promptry.Segment

/-! ### Texts behind a lead -/

theorem behind?_eq_some_iff {lead cs r : List Char} :
    behind? lead cs = some r ↔ cs = lead ++ r := by
  unfold behind?
  constructor
  · intro h
    split at h
    · rename_i isLead
      obtain ⟨t, rfl⟩ := List.isPrefixOf_iff_prefix.mp isLead
      have rest : t = r := by simpa using h
      rw [rest]
    · cases h
  · rintro rfl
    simp

theorem behind?_append (lead r : List Char) : behind? lead (lead ++ r) = some r :=
  behind?_eq_some_iff.mpr rfl

theorem behind?_eq_none_iff {lead cs : List Char} : behind? lead cs = none ↔ ¬ lead <+: cs := by
  rw [← List.isPrefixOf_iff_prefix]
  simp [behind?]

/-! ### Infixes -/

/-- An infix of `a ++ b` that shares no character with `b` lies in `a`. -/
theorem infix_left_of_disjoint {l a b : List Char} (apart : ∀ c ∈ b, c ∉ l) (ne : l ≠ [])
    (h : l <:+: a ++ b) : l <:+: a := by
  induction a with
  | nil =>
    obtain ⟨c, l', rfl⟩ := List.exists_cons_of_ne_nil ne
    exact absurd List.mem_cons_self (apart c (h.subset List.mem_cons_self))
  | cons d a ih =>
    rw [List.cons_append, List.infix_cons_iff] at h
    rcases h with h | h
    · -- a prefix that reaches into `b` would share a character with it
      have whole : l <+: d :: a := by
        rcases List.prefix_or_prefix_of_prefix h (List.prefix_append (d :: a) b) with h' | ⟨t, rfl⟩
        · exact h'
        · cases t with
          | nil => simp
          | cons c t =>
            have inB : c :: t <+: b := by simpa using h
            exact absurd (by simp) (apart c (inB.subset List.mem_cons_self))
      exact whole.isInfix
    · exact (ih h).trans (List.suffix_cons d a).isInfix

/-- A word cannot begin among characters that are not its first. -/
theorem infix_right_of_head_ne {c : Char} {l a b : List Char} (apart : c ∉ a)
    (h : c :: l <:+: a ++ b) : c :: l <:+: b := by
  induction a with
  | nil => simpa using h
  | cons d a ih =>
    simp only [List.mem_cons, not_or] at apart
    rw [List.cons_append, List.infix_cons_iff] at h
    rcases h with h | h
    · exact absurd (List.cons_prefix_cons.mp h).1 apart.1
    · exact ih apart.2 h

/-! ### The opening -/

/-- The text of a marker with some inside. -/
def wrapped (inside : List Char) : List Char := opening ++ inside ++ closing

theorem toList_wrap (inside : String) : (Marker.wrap inside).toList = wrapped inside.toList := by
  simp [Marker.wrap, wrapped, opening, closing]

theorem opening_ne_nil : opening ≠ [] := by decide

theorem wrapped_ne_nil (inside : List Char) : wrapped inside ≠ [] := by
  simp [wrapped, opening_ne_nil]

/-- No end of the opening is a beginning of it. -/
theorem opening_unbordered {s t : List Char} (h : opening = s ++ t) (hs : s ≠ []) (ht : t ≠ []) :
    ¬ t <+: opening := by
  have all : ∀ k < opening.length, 0 < k → ¬ (opening.drop k).isPrefixOf opening := by decide
  have bound : s.length < opening.length := by
    rw [h, List.length_append]
    exact Nat.lt_add_of_pos_right (List.length_pos_iff.mpr ht)
  have := all s.length bound (List.length_pos_iff.mpr hs)
  rwa [List.isPrefixOf_iff_prefix, h, List.drop_left, ← h] at this

theorem gt_not_mem_opening : '>' ∉ opening := by decide

/-- An opening inside a marker would be an opening inside its inside. -/
theorem opening_infix_of_closing {inside : List Char} (h : opening <:+: inside ++ closing) :
    opening <:+: inside := by
  have apart : closing.all (· ∉ opening) = true := by decide
  exact infix_left_of_disjoint (by simpa using apart) opening_ne_nil h

/-- The opening of a marker begins a text; what is left of it behind its first characters does
not. -/
theorem not_opening_prefix_shifted {s p i : List Char} (h : opening = s ++ p) (hs : s ≠ [])
    (hp : p ≠ []) : ¬ opening <+: p ++ i := by
  intro begins
  have short : p.length ≤ opening.length := by simp [h]
  exact opening_unbordered h hs hp
    (List.prefix_of_prefix_length_le (List.prefix_append p i) begins short)

/-- A marker ends in a character that the opening lacks. -/
theorem not_prefix_opening_of_wrapped {inside s t : List Char} (h : wrapped inside = s ++ t)
    (ht : t ≠ []) : ¬ t <+: opening := by
  have last : t.getLast? = some '>' := by
    have whole : (s ++ t).getLast? = some '>' := by
      rw [← h]
      simp [wrapped, closing, Marker.closing]
    rwa [List.getLast?_append, List.getLast?_eq_some_getLast ht, Option.some_or,
      ← List.getLast?_eq_some_getLast ht] at whole
  exact fun begins => gt_not_mem_opening (begins.subset (List.mem_of_getLast? last))

/-- No opening begins inside a marker whose inside holds none, whatever follows the marker. -/
theorem not_opening_prefix_wrapped {inside s t v : List Char} (free : ¬ opening <:+: inside)
    (h : wrapped inside = s ++ t) (hs : s ≠ []) (ht : t ≠ []) : ¬ opening <+: t ++ v := by
  intro begins
  have within : opening <+: t := by
    rcases List.prefix_or_prefix_of_prefix begins (List.prefix_append t v) with h' | h'
    · exact h'
    · exact absurd h' (not_prefix_opening_of_wrapped h ht)
  rw [wrapped, List.append_assoc] at h
  rcases List.append_eq_append_iff.mp h with ⟨a, rfl, rest⟩ | ⟨p, split, rfl⟩
  · exact free (opening_infix_of_closing
      (rest ▸ within.isInfix.trans (List.suffix_append a t).isInfix))
  · by_cases hp : p = []
    · subst hp
      exact free (opening_infix_of_closing (by simpa using within.isInfix))
    · exact not_opening_prefix_shifted split hs hp within

/-- No opening begins in a text that holds none, if a marker or nothing follows it. -/
theorem not_opening_prefix_append {t v : List Char} (free : ¬ opening <:+: t) (ht : t ≠ [])
    (follows : v = [] ∨ opening <+: v) : ¬ opening <+: t ++ v := by
  intro begins
  rcases List.prefix_or_prefix_of_prefix begins (List.prefix_append t v) with h | ⟨q, hq⟩
  · exact free h.isInfix
  · rw [← hq, List.prefix_append_right_inj] at begins
    by_cases hne : q = []
    · exact free (by simp [← hq, hne])
    · rcases follows with rfl | follows
      · exact hne (List.prefix_nil.mp begins)
      · have short : q.length ≤ opening.length := by simp [← hq]
        exact opening_unbordered hq.symm ht hne
          (List.prefix_of_prefix_length_le begins follows short)

end Promptry.Segment
