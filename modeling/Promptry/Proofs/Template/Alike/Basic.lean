import Promptry.Proofs.Template.Splice

/-!
Readers on a template and on the template with references redirected. A reader reads both alike if
it refuses both, or takes the same stretch off both, up to what was put in. Main statements:
`TakesAlike.behind`, `TakesAlike.orElse` and `TakesAlike.bind`, that readers put together read alike
if their parts do.
-/

namespace Promptry.Template

/-- What is left of two texts once the same stretch was taken off them. -/
structure Leaves (cs cs' r r' : List Char) : Prop where
  rest : Redirected r r'
  taken : ∃ w w', cs = w ++ r ∧ cs' = w' ++ r' ∧ Renamed w w'

section

variable {cs cs' r r' s s' : List Char}

namespace Leaves

theorem refl (h : Redirected cs cs') : Leaves cs cs' cs cs' := ⟨h, [], [], rfl, rfl, .nil⟩

theorem trans (first : Leaves cs cs' r r') (second : Leaves r r' s s') : Leaves cs cs' s s' := by
  obtain ⟨-, w, w', rfl, rfl, taken⟩ := first
  obtain ⟨rest, v, v', rfl, rfl, taken'⟩ := second
  exact ⟨rest, w ++ v, w' ++ v', (List.append_assoc _ _ _).symm, (List.append_assoc _ _ _).symm,
    taken.append taken'⟩

/-- Some characters in front of both texts. -/
theorem behind (p : List Char) (rest : Redirected r r') : Leaves (p ++ r) (p ++ r') r r' :=
  ⟨rest, p, p, rfl, rfl, .refl p⟩

theorem tail {c : Char} (rest : Redirected r r') : Leaves (c :: r) (c :: r') r r' :=
  behind [c] rest

/-- The at sign of a reference that is redirected, with what is put in behind it. -/
theorem splice (rest : Redirected r r') :
    Leaves ('@' :: r) ('@' :: (DataVariables.redirection ++ r')) r r' :=
  ⟨rest, ['@'], '@' :: (DataVariables.redirection ++ []), rfl, by simp, .splice trivial .nil⟩

theorem dropWhile {p : Char → Bool} (stops : p '@' = false) (h : Redirected cs cs') :
    Leaves cs cs' (cs.dropWhile p) (cs'.dropWhile p) where
  rest := h.dropWhile stops
  taken := ⟨cs.takeWhile p, cs'.takeWhile p, List.takeWhile_append_dropWhile.symm,
    List.takeWhile_append_dropWhile.symm, h.takeWhile_eq stops ▸ .refl _⟩

/-- Some of the characters of a stretch that holds no at sign. -/
theorem drop {p : Char → Bool} (stops : p '@' = false) (h : Redirected cs cs') {k : Nat}
    (inside : k ≤ (cs.takeWhile p).length) : Leaves cs cs' (cs.drop k) (cs'.drop k) := by
  have whole := List.takeWhile_append_dropWhile (p := p) (l := cs)
  have whole' := List.takeWhile_append_dropWhile (p := p) (l := cs')
  rw [h.takeWhile_eq stops] at whole'
  have below := h.dropWhile stops
  generalize cs.takeWhile p = w at *
  rw [← whole, ← whole', List.drop_append_of_le_length inside, List.drop_append_of_le_length inside]
  refine ⟨below.prepend _, w.take k, w.take k, ?_, ?_, .refl _⟩ <;>
    rw [← List.append_assoc, List.take_append_drop]

theorem length_le (left : Leaves cs cs' r r') : r.length ≤ cs.length := by
  obtain ⟨-, w, w', rfl, -, -⟩ := left
  simp

theorem length_le' (left : Leaves cs cs' r r') : r'.length ≤ cs'.length := by
  obtain ⟨-, w, w', -, rfl, -⟩ := left
  simp

/-- What takes something off the one text takes something off the other. -/
theorem length_lt' (left : Leaves cs cs' r r') (shorter : r.length < cs.length) :
    r'.length < cs'.length := by
  obtain ⟨-, w, w', rfl, rfl, taken⟩ := left
  cases taken with
  | nil => exact absurd shorter (Nat.lt_irrefl _)
  | cons => simp only [List.length_append, List.length_cons]; omega
  | splice => simp only [List.length_append, List.length_cons]; omega

end Leaves

/-- What a reader takes off two texts: it refuses both, or takes the same stretch off both, and the
answers with what they leave are alike. -/
inductive TakesAlike {α β : Type} (alike : α × List Char → β × List Char → Prop)
    (cs cs' : List Char) : Option (α × List Char) → Option (β × List Char) → Prop
  | refused : TakesAlike alike cs cs' none none
  | read {a : α} {b : β} {r r' : List Char} (same : alike (a, r) (b, r'))
      (left : Leaves cs cs' r r') (shorter : r.length < cs.length) :
      TakesAlike alike cs cs' (some (a, r)) (some (b, r'))

/-- A reader reads two texts alike: the answers are alike, whatever is left. -/
abbrev ReadsAlike {α β : Type} (alike : α → β → Prop) (cs cs' : List Char) :
    Option (α × List Char) → Option (β × List Char) → Prop :=
  TakesAlike (fun p q => alike p.1 q.1) cs cs'

namespace TakesAlike

variable {α β γ δ : Type} {alike : α × List Char → β × List Char → Prop}
  {alike' : γ × List Char → δ × List Char → Prop}
  {o p : Option (α × List Char)} {o' p' : Option (β × List Char)}

theorem cases (h : TakesAlike alike cs cs' o o') : o = none ∧ o' = none ∨
    ∃ a b r r', o = some (a, r) ∧ o' = some (b, r') ∧ alike (a, r) (b, r') ∧ Leaves cs cs' r r' ∧
      r.length < cs.length := by
  cases h with
  | refused => exact .inl ⟨rfl, rfl⟩
  | read same left shorter => exact .inr ⟨_, _, _, _, rfl, rfl, same, left, shorter⟩

/-- Behind the same stretch. -/
theorem behind (left : Leaves cs cs' r r') (reads : TakesAlike alike r r' o o') :
    TakesAlike alike cs cs' o o' := by
  cases reads with
  | refused => exact .refused
  | read same left' shorter =>
    exact .read same (left.trans left') (Nat.lt_of_lt_of_le shorter left.length_le)

theorem orElse (first : TakesAlike alike cs cs' o o') (second : TakesAlike alike cs cs' p p') :
    TakesAlike alike cs cs' (o.orElse fun _ => p) (o'.orElse fun _ => p') := by
  cases first with
  | refused => exact second
  | read same left shorter => exact .read same left shorter

theorem map {f : α × List Char → γ × List Char} {f' : β × List Char → δ × List Char}
    (reads : TakesAlike alike cs cs' o o')
    (mapped : ∀ a b r r', alike (a, r) (b, r') →
      (f (a, r)).2 = r ∧ (f' (b, r')).2 = r' ∧ alike' (f (a, r)) (f' (b, r'))) :
    TakesAlike alike' cs cs' (o.map f) (o'.map f') := by
  cases reads with
  | refused => exact .refused
  | @read a b r r' same left shorter =>
    obtain ⟨rest, rest', same'⟩ := mapped a b r r' same
    have left' : Leaves cs cs' (f (a, r)).2 (f' (b, r')).2 := rest.symm ▸ rest'.symm ▸ left
    exact .read same' left' (rest.symm ▸ shorter)

theorem bind {f : α × List Char → Option (γ × List Char)}
    {f' : β × List Char → Option (δ × List Char)} (reads : TakesAlike alike cs cs' o o')
    (next : ∀ a b r r', alike (a, r) (b, r') → Leaves cs cs' r r' → r.length < cs.length →
      TakesAlike alike' cs cs' (f (a, r)) (f' (b, r'))) :
    TakesAlike alike' cs cs' (o.bind f) (o'.bind f') := by
  cases reads with
  | refused => exact .refused
  | read same left shorter => exact next _ _ _ _ same left shorter

end TakesAlike

/-! ### Prefixes -/

theorem isPrefixOf_append (w s : List Char) : w.isPrefixOf (w ++ s) = true :=
  List.isPrefixOf_iff_prefix.mpr (List.prefix_append w s)

theorem isPrefixOf_of_ne {w s : List Char} (other : ∀ r, s ≠ w ++ r) : w.isPrefixOf s = false := by
  rw [← Bool.not_eq_true, List.isPrefixOf_iff_prefix]
  rintro ⟨r, same⟩
  exact other r same.symm

/-! ### Gaps -/

theorem Leaves.skipGap (h : Redirected cs cs') : Leaves cs cs' (skipGap cs) (skipGap cs') :=
  .dropWhile (by decide) h

theorem TakesAlike.skipGap {α β : Type} {alike : α → β → Prop} {o : Option (α × List Char)}
    {o' : Option (β × List Char)} (reads : ReadsAlike alike cs cs' o o') :
    ReadsAlike alike cs cs' (o.map fun (a, r) => (a, Template.skipGap r))
      (o'.map fun (b, r) => (b, Template.skipGap r)) := by
  cases reads with
  | refused => exact .refused
  | read same left shorter =>
    have gap := Leaves.skipGap left.rest
    exact .read same (left.trans gap) (Nat.lt_of_le_of_lt gap.length_le shorter)

/-- What was read so far, if a mark follows. -/
def before? {α : Type} (mark : Char) (a : α) (cs : List Char) : Option (α × List Char) :=
  if (Template.skipGap cs).head? = some mark then some (a, (Template.skipGap cs).tail) else none

theorem before?_of_cons {α : Type} {mark : Char} (a : α) (follows : skipGap cs = mark :: r) :
    before? mark a cs = some (a, r) := by
  rw [before?, follows]
  exact if_pos rfl

theorem before?_of_ne {α : Type} {mark : Char} (a : α) (ne : ∀ r, skipGap cs ≠ mark :: r) :
    before? mark a cs = none := by
  rw [before?, if_neg]
  intro follows
  obtain ⟨r, same⟩ := List.head?_eq_some_iff.mp follows
  exact ne r same

theorem before?_alike {α β : Type} {alike : α → β → Prop} {mark : Char} {a : α} {b : β}
    (ne : mark ≠ '@') (same : alike a b) (h : Redirected cs cs') :
    ReadsAlike alike cs cs' (before? mark a cs) (before? mark b cs') := by
  have gap := Leaves.skipGap h
  rcases gap.rest.head_cases mark ne with ⟨s, s', follows, follows', rest⟩ | ⟨ne, ne'⟩
  · rw [before?_of_cons a follows, before?_of_cons b follows']
    rw [follows, follows'] at gap
    exact .read same (gap.trans (.tail rest)) gap.length_le
  · rw [before?_of_ne a ne, before?_of_ne b ne']
    exact .refused

end

end Promptry.Template
