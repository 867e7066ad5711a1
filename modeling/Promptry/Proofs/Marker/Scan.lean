import Promptry.Proofs.Marker.Opening

/-!
Cutting a text into segments, by equations. `scan` is the cut behind a stretch of text that was read
before. It goes on character by character (`scan_cons`), takes a marker that it meets as a segment
of its own (`scan_marker`), and passes over what only looks like one (`scan_unknown`). Main
statement: `scan_spells`, that the segments spell the text.
-/

namespace Promptry.Segment

variable {candidate? : List Char → Option (Candidate × List Char)}

/-- Candidates are taken off the head of a text, and are not empty. -/
def TakesHead (candidate? : List Char → Option (Candidate × List Char)) : Prop :=
  ∀ {cs : List Char} {c : Candidate} {r : List Char},
    candidate? cs = some (c, r) → cs = c.written ++ r ∧ c.written ≠ []

theorem TakesHead.length_lt (takes : TakesHead candidate?) {cs r : List Char} {c : Candidate}
    (found : candidate? cs = some (c, r)) : r.length < cs.length := by
  obtain ⟨rfl, ne⟩ := takes found
  have := List.length_pos_iff.mpr ne
  rw [List.length_append]
  omega

theorem TakesHead.ne_nil (takes : TakesHead candidate?) {cs r : List Char} {c : Candidate}
    (found : candidate? cs = some (c, r)) : cs ≠ [] :=
  List.ne_nil_of_length_pos (Nat.zero_lt_of_lt (takes.length_lt found))

/-- The segments of a text behind `literal`, a stretch of text given last character first. -/
def scan (candidate? : List Char → Option (Candidate × List Char)) (literal cs : List Char) :
    List Segment :=
  splitFrom candidate? cs literal [] cs

/-! ### The bound -/

theorem closeText_append (literal : List Char) (segments : List Segment) :
    closeText literal segments = closeText literal [] ++ segments := by
  unfold closeText
  split <;> simp

/-- Segments that are there already stay in front. -/
theorem splitFrom_segments (fuel literal : List Char) (segments : List Segment) (cs : List Char) :
    splitFrom candidate? fuel literal segments cs =
      segments.reverse ++ splitFrom candidate? fuel literal [] cs := by
  induction fuel generalizing literal segments cs with
  | nil => simp [splitFrom, closeText_append literal segments]
  | cons _ fuel ih =>
    cases cs with
    | nil => simp [splitFrom, closeText_append literal segments]
    | cons c r =>
      simp only [splitFrom]
      split
      · rw [ih, ih _ (_ :: closeText literal [])]
        simp [closeText_append literal segments]
      · exact ih _ _ _
      · exact ih _ _ _

/-- Every bound that is long enough gives the same segments. -/
theorem splitFrom_bound (takes : TakesHead candidate?) {fuel fuel' : List Char}
    (literal : List Char) (segments : List Segment) {cs : List Char}
    (enough : cs.length ≤ fuel.length) (enough' : cs.length ≤ fuel'.length) :
    splitFrom candidate? fuel literal segments cs =
      splitFrom candidate? fuel' literal segments cs := by
  induction fuel generalizing fuel' literal segments cs with
  | nil =>
    obtain rfl := List.length_eq_zero_iff.mp (Nat.le_zero.mp enough)
    cases fuel' <;> simp [splitFrom]
  | cons _ fuel ih =>
    cases fuel' with
    | nil =>
      obtain rfl := List.length_eq_zero_iff.mp (Nat.le_zero.mp enough')
      simp [splitFrom]
    | cons _ fuel' =>
      cases cs with
      | nil => simp [splitFrom]
      | cons c r =>
        simp only [List.length_cons] at enough enough'
        simp only [splitFrom]
        split
        · rename_i found
          have shorter := takes.length_lt found
          rw [List.length_cons] at shorter
          exact ih _ _ (by omega) (by omega)
        · rename_i found
          have shorter := takes.length_lt found
          rw [List.length_cons] at shorter
          exact ih _ _ (by omega) (by omega)
        · exact ih _ _ (by omega) (by omega)

/-! ### The equations -/

theorem scan_nil (literal : List Char) : scan candidate? literal [] = closeText literal [] := by
  unfold scan closeText
  split <;> simp_all [splitFrom, closeText]

theorem scan_cons {c : Char} {r : List Char} (plain : candidate? (c :: r) = none)
    (literal : List Char) :
    scan candidate? literal (c :: r) = scan candidate? (c :: literal) r := by
  simp only [scan, splitFrom, plain]

theorem scan_marker (takes : TakesHead candidate?) {written cs rest : List Char} {m : Marker}
    (found : candidate? cs = some (⟨written, some m⟩, rest)) (literal : List Char) :
    scan candidate? literal cs =
      closeText literal [] ++ .marker m :: scan candidate? [] rest := by
  obtain ⟨c, r, rfl⟩ := List.exists_cons_of_ne_nil (takes.ne_nil found)
  have bound := takes.length_lt found
  have single : (closeText literal []).reverse = closeText literal [] := by
    unfold closeText
    split <;> rfl
  simp only [scan, splitFrom, found]
  rw [splitFrom_segments, splitFrom_bound takes [] [] (Nat.le_of_lt_succ bound) (Nat.le_refl _),
    List.reverse_cons, single]
  simp

theorem scan_unknown (takes : TakesHead candidate?) {written cs rest : List Char}
    (found : candidate? cs = some (⟨written, none⟩, rest)) (literal : List Char) :
    scan candidate? literal cs = scan candidate? (written.reverse ++ literal) rest := by
  obtain ⟨c, r, rfl⟩ := List.exists_cons_of_ne_nil (takes.ne_nil found)
  have bound := takes.length_lt found
  simp only [scan, splitFrom, found]
  exact splitFrom_bound takes _ [] (Nat.le_of_lt_succ bound) (Nat.le_refl _)

/-- Induction over what a cut meets in a text. -/
theorem reading_induction (takes : TakesHead candidate?) {motive : List Char → Prop}
    (nil : motive [])
    (plain : ∀ c r, candidate? (c :: r) = none → motive r → motive (c :: r))
    (marker : ∀ written m rest, candidate? (written ++ rest) = some (⟨written, some m⟩, rest) →
      motive rest → motive (written ++ rest))
    (unknown : ∀ written rest, candidate? (written ++ rest) = some (⟨written, none⟩, rest) →
      motive rest → motive (written ++ rest)) (cs : List Char) : motive cs := by
  induction h : cs.length using Nat.strongRecOn generalizing cs with
  | ind n ih =>
    subst h
    rcases found : candidate? cs with _ | ⟨⟨written, m | m⟩, rest⟩
    · cases cs with
      | nil => exact nil
      | cons c r => exact plain c r found (ih _ (by simp) r rfl)
    · have bound := takes.length_lt found
      obtain ⟨rfl, -⟩ := takes found
      exact unknown written rest found (ih _ bound rest rfl)
    · have bound := takes.length_lt found
      obtain ⟨rfl, -⟩ := takes found
      exact marker written m rest found (ih _ bound rest rfl)

/-! ### What the segments say -/

/-- The segments spell a text: stretches of text stand as they are, and markers as the reader of
candidates took them. -/
inductive Spells (candidate? : List Char → Option (Candidate × List Char)) :
    List Segment → List Char → Prop where
  | nil : Spells candidate? [] []
  | text {s cs : List Char} {segments : List Segment} : Spells candidate? segments cs →
      Spells candidate? (.text (String.ofList s) :: segments) (s ++ cs)
  | marker {written cs : List Char} {m : Marker} {segments : List Segment} :
      candidate? (written ++ cs) = some (⟨written, some m⟩, cs) → Spells candidate? segments cs →
      Spells candidate? (.marker m :: segments) (written ++ cs)

theorem Spells.closeText {segments : List Segment} {cs : List Char}
    (h : Spells candidate? segments cs) (literal : List Char) :
    Spells candidate? (closeText literal segments) (literal.reverse ++ cs) := by
  unfold Segment.closeText
  split
  · rename_i empty
    simpa [List.isEmpty_iff.mp empty] using h
  · exact .text h

/-- The segments of a text spell it. -/
theorem scan_spells (takes : TakesHead candidate?) (literal cs : List Char) :
    Spells candidate? (scan candidate? literal cs) (literal.reverse ++ cs) := by
  induction cs using reading_induction takes generalizing literal with
  | nil => simpa [scan_nil] using Spells.nil.closeText literal
  | plain c r found ih => simpa [scan_cons found] using ih (c :: literal)
  | marker written m rest found ih =>
    rw [scan_marker takes found, ← closeText_append]
    exact (Spells.marker found (by simpa using ih [])).closeText literal
  | unknown written rest found ih =>
    rw [scan_unknown takes found]
    simpa using ih (written.reverse ++ literal)

end Promptry.Segment
