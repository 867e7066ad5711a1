import Promptry.Proofs.Template.Alike.Basic
import Promptry.Proofs.Template.Inclusion

/-!
Paths with references redirected. What is put in behind the at sign of a reference is the mark of
the outermost context and the key of the context object, and a key follows; so the path goes on, and
ends where it did before. Main statements: `word?_alike` and `path?_alike`.
-/

namespace Promptry.Template

open DataVariables

variable {cs cs' r r' : List Char}

/-! ### Keys -/

theorem word?_alike (h : Redirected cs cs') : ReadsAlike Eq cs cs' (word? cs) (word? cs') := by
  have same := h.takeWhile_eq (p := isSymbol) (by decide)
  rw [word?, word?, same]
  cases word : cs.takeWhile isSymbol with
  | nil => exact .refused
  | cons c w =>
    have whole := congrArg List.length (List.takeWhile_append_dropWhile (p := isSymbol) (l := cs))
    rw [word, List.length_append, List.length_cons] at whole
    exact .read rfl (.dropWhile (by decide) h) (by omega)

theorem keyName?_of_ne (ne : ∀ r, cs ≠ ['['] ++ r) :
    keyName? cs = (word? cs).map fun (w, rest) => ((w.toList, w), rest) := by
  rw [keyName?.eq_def]
  split
  · next r => exact absurd rfl (ne r)
  · rfl

theorem keyName?_alike (h : Redirected cs cs') :
    ReadsAlike (fun _ _ => True) cs cs' (keyName? cs) (keyName? cs') := by
  rcases h.prefix_cases ['['] (by decide) with ⟨r, r', rfl, rfl, rest⟩ | ⟨ne, ne'⟩
  · have inside := rest.takeWhile (p := (· != ']')) (by decide) (by decide)
    have behind := rest.dropWhile_over (p := (· != ']')) (by decide) (by decide)
    have whole := List.takeWhile_append_dropWhile (p := (· != ']')) (l := r)
    have whole' := List.takeWhile_append_dropWhile (p := (· != ']')) (l := r')
    have stops := List.head?_dropWhile_not (· != ']') r
    simp only [keyName?, List.singleton_append]
    cases closing : r.dropWhile (· != ']') with
    | nil =>
      rw [closing] at behind
      rw [behind.eq_nil_iff.mpr rfl]
      exact .refused
    | cons c rest =>
      rw [closing] at behind stops whole
      have bracket : c = ']' := by simpa using stops
      subst bracket
      obtain ⟨rest', closing', tail⟩ := behind.of_cons (by decide)
      rw [closing'] at whole' ⊢
      refine .read trivial ⟨tail, '[' :: (r.takeWhile (· != ']') ++ [']']),
        '[' :: (r'.takeWhile (· != ']') ++ [']']), ?_, ?_, ?_⟩ ?_
      · simp [whole]
      · simp [whole']
      · exact .cons '[' (inside.append (.refl _))
      · rw [← whole]
        simp
        omega
  · rw [keyName?_of_ne ne, keyName?_of_ne ne']
    exact (word?_alike h).map fun _ _ _ _ _ => ⟨rfl, rfl, trivial⟩

theorem moreKeys_nil (fuel : List Char) (acc : Steps) : moreKeys fuel acc [] = (acc, []) := by
  cases fuel <;> rfl

theorem moreKeys_of_not_separator (fuel : List Char) (acc : Steps) {c : Char}
    (other : isSeparator c = false) (r : List Char) :
    moreKeys fuel acc (c :: r) = (acc, c :: r) := by
  cases fuel with
  | nil => rfl
  | cons _ fuel => simp [moreKeys, other]

/-- Further keys of a path, also of paths that are not the same so far. -/
theorem moreKeys_leaves {fuel fuel' : List Char} (acc acc' : Steps) (h : Redirected cs cs')
    (enough : cs.length ≤ fuel.length) (enough' : cs'.length ≤ fuel'.length) :
    Leaves cs cs' (moreKeys fuel acc cs).2 (moreKeys fuel' acc' cs').2 := by
  induction fuel generalizing fuel' acc acc' cs cs' with
  | nil =>
    obtain rfl := List.eq_nil_of_length_eq_zero (Nat.le_zero.mp enough)
    obtain rfl := h.eq_nil_iff.mpr rfl
    rw [moreKeys_nil, moreKeys_nil]
    exact .refl h
  | cons _ fuel ih =>
    cases h with
    | nil =>
      rw [moreKeys_nil, moreKeys_nil]
      exact .refl .nil
    | splice here rest =>
      rw [moreKeys_of_not_separator _ _ (by decide), moreKeys_of_not_separator _ _ (by decide)]
      exact .refl (.splice here rest)
    | @cons c r r' rest =>
      by_cases separator : isSeparator c = true
      · cases fuel' with
        | nil => cases enough'
        | cons _ fuel' =>
          simp only [moreKeys, separator, if_true]
          rcases (keyName?_alike rest).cases with
            ⟨none, none'⟩ | ⟨⟨w, k⟩, ⟨w', k'⟩, s, s', key, key', -, left, shorter⟩
          · rw [none, none']
            exact .refl (.cons c rest)
          · rw [key, key']
            have shorter' := left.length_lt' shorter
            simp only [List.length_cons] at enough enough'
            exact (Leaves.tail rest).trans (left.trans (ih _ _ left.rest (by omega) (by omega)))
      · rw [moreKeys_of_not_separator _ _ (by simpa using separator),
          moreKeys_of_not_separator _ _ (by simpa using separator)]
        exact .refl (.cons c rest)

/-! ### Marks in front of the keys -/

theorem separator_ne_at {c : Char} (separator : isSeparator c = true) : c ≠ '@' := by
  rintro rfl
  exact absurd separator (by decide)

/-- Both texts start with a word and a separator, or none does. -/
theorem marked_cases (p : List Char) (plain : '@' ∉ p) (h : Redirected cs cs') :
    (∃ c r r', isSeparator c = true ∧ cs = p ++ c :: r ∧ cs' = p ++ c :: r' ∧ Redirected r r') ∨
      (∀ c r, isSeparator c = true → cs ≠ p ++ c :: r) ∧
        ∀ c r', isSeparator c = true → cs' ≠ p ++ c :: r' := by
  by_cases starts : ∃ c r, isSeparator c = true ∧ cs = p ++ c :: r
  · obtain ⟨c, r, separator, rfl⟩ := starts
    obtain ⟨below, rfl, marked⟩ := Spliced.of_append plain h
    obtain ⟨r', rfl, rest⟩ := marked.of_cons (separator_ne_at separator)
    exact .inl ⟨c, r, r', separator, rfl, rfl, rest⟩
  · refine .inr ⟨fun c r separator same => starts ⟨c, r, separator, same⟩, ?_⟩
    rintro c r' separator rfl
    obtain ⟨above, rfl, rest⟩ := Spliced.to_append plain h
    obtain ⟨r, rfl, -⟩ := rest.to_cons (separator_ne_at separator)
    exact starts ⟨c, r, separator, rfl⟩

theorem upSteps_of_ne (ne : ∀ c r, isSeparator c = true → cs ≠ ['.', '.'] ++ c :: r) :
    upSteps cs = (⟨[], []⟩, cs) := by
  rw [upSteps.eq_def]
  split
  · next c r =>
    split
    · next separator => exact absurd rfl (ne c r separator)
    · rfl
  · rfl

theorem upSteps_leaves {cs cs' : List Char} (h : Redirected cs cs') :
    Leaves cs cs' (upSteps cs).2 (upSteps cs').2 := by
  rcases marked_cases ['.', '.'] (by decide) h with
    ⟨c, r, r', separator, rfl, rfl, rest⟩ | ⟨ne, ne'⟩
  · have above (r : List Char) : (upSteps (['.', '.'] ++ c :: r)).2 = (upSteps r).2 := by
      simp [upSteps, separator]
    rw [above, above]
    exact (Leaves.behind ['.', '.', c] rest).trans (upSteps_leaves rest)
  · rw [upSteps_of_ne ne, upSteps_of_ne ne']
    exact .refl h
termination_by cs.length
decreasing_by simp_all; omega

theorem currentMark_of_ne (ne : ∀ c r, isSeparator c = true → cs ≠ ['t', 'h', 'i', 's'] ++ c :: r)
    (ne' : ∀ r, cs ≠ ['.', '/'] ++ r) : currentMark cs = ([], cs) := by
  rw [currentMark.eq_def]
  split
  · next c r =>
    split
    · next separator => exact absurd rfl (ne c r separator)
    · rfl
  · next r => exact absurd rfl (ne' r)
  · rfl

theorem currentMark_leaves (h : Redirected cs cs') :
    Leaves cs cs' (currentMark cs).2 (currentMark cs').2 := by
  rcases marked_cases ['t', 'h', 'i', 's'] (by decide) h with
    ⟨c, r, r', separator, rfl, rfl, rest⟩ | ⟨ne, ne'⟩
  · have behind (r : List Char) : (currentMark (['t', 'h', 'i', 's'] ++ c :: r)).2 = r := by
      simp [currentMark, separator]
    rw [behind, behind]
    exact .behind ['t', 'h', 'i', 's', c] rest
  · rcases h.prefix_cases ['.', '/'] (by decide) with ⟨r, r', rfl, rfl, rest⟩ | ⟨other, other'⟩
    · exact .behind ['.', '/'] rest
    · rw [currentMark_of_ne ne other, currentMark_of_ne ne' other']
      exact .refl h

theorem rootStep_of_ne (ne : ∀ c s, isSeparator c = true → r ≠ ['r', 'o', 'o', 't'] ++ c :: s) :
    rootStep ('@' :: r) = (⟨[], []⟩, '@' :: r) := by
  rw [rootStep.eq_def]
  split
  · next c s same =>
    cases same
    split
    · next separator => exact absurd rfl (ne c s separator)
    · rfl
  · rfl

/-- A reference to the outermost context is not redirected. -/
theorem Foreign.not_root (foreign : Foreign cs) (c : Char) (r : List Char)
    (separator : isSeparator c = true) : cs ≠ ['r', 'o', 'o', 't'] ++ c :: r := by
  rintro rfl
  have other := foreign.other
  have ends : isNameChar c = false := by
    simp only [isSeparator, Bool.or_eq_true, beq_iff_eq] at separator
    rcases separator with rfl | rfl <;> decide
  rw [List.takeWhile_append_of_pos (List.all_eq_true.mp (by decide)),
    List.takeWhile_cons_of_neg (by simp [ends])] at other
  exact absurd other (by decide)

theorem Foreign.upSteps_eq (foreign : Foreign cs) (rest : List Char) :
    (upSteps (cs ++ rest)).2 = cs ++ rest := by
  obtain ⟨c, r, rfl, start⟩ := foreign.starts
  rw [upSteps_of_ne]
  rintro d s - same
  obtain ⟨rfl, -⟩ := List.cons.inj same
  exact absurd start (by decide)

/-- The text behind the mark of a loop variable and the steps up. -/
def loopMarks (cs : List Char) : List Char := (upSteps (loopStep cs).2).2

theorem loopStep_of_ne {c : Char} (ne : c ≠ '@') (r : List Char) :
    loopStep (c :: r) = (⟨[], []⟩, c :: r) := by
  rw [loopStep.eq_def]
  split
  · next same => exact absurd (List.cons.inj same).1 ne
  · rfl

/-- The marks are read alike, unless the reference is redirected. -/
theorem loopMarks_leaves (h : Redirected cs cs') :
    Leaves cs cs' (loopMarks cs) (loopMarks cs') ∨
      ∃ r r', cs = '@' :: r ∧ cs' = '@' :: (redirection ++ r') ∧ Foreign r ∧ Redirected r r' := by
  cases h with
  | nil => exact .inl (.refl .nil)
  | @cons c r r' rest =>
    left
    by_cases mark : c = '@'
    · subst mark
      exact (Leaves.tail rest).trans (upSteps_leaves rest)
    · rw [loopMarks, loopMarks, loopStep_of_ne mark, loopStep_of_ne mark]
      exact upSteps_leaves (.cons c rest)
  | splice here rest => exact .inr ⟨_, _, rfl, rfl, here, rest⟩

/-- The text behind the step to the outermost context and the marks behind it. -/
def rootMarks (cs : List Char) : List Char := loopMarks (rootStep cs).2

/-- What may stand in place of the marks: the key of the context object, which the step to the
outermost context leads to, or else the word for that context, as a key, in front of it. -/
def detours : List (List Char) := [contextKey.toList ++ ['.'], redirection]

theorem loopMarks_at (foreign : Foreign r) : loopMarks ('@' :: r) = r := by
  have none := foreign.upSteps_eq []
  rwa [List.append_nil] at none

theorem upSteps_detour {detour : List Char} (mem : detour ∈ detours) (r : List Char) :
    (upSteps (detour ++ r)).2 = detour ++ r := by
  have starts : ∃ c w, detour = c :: w ∧ c ≠ '.' := by
    simp only [detours, List.mem_cons, List.not_mem_nil, or_false] at mem
    rcases mem with rfl | rfl
    · exact ⟨'_', _, rfl, by decide⟩
    · exact ⟨'r', _, rfl, by decide⟩
  obtain ⟨c, w, rfl, ne⟩ := starts
  rw [upSteps_of_ne]
  rintro d s - same
  exact ne (List.cons.inj same).1

/-- The marks are read alike, unless the reference is redirected: then a detour takes their
place. -/
theorem rootMarks_leaves (h : Redirected cs cs') :
    Leaves cs cs' (rootMarks cs) (rootMarks cs') ∨
      ∃ r' detour, Foreign (rootMarks cs) ∧ detour ∈ detours ∧ rootMarks cs' = detour ++ r' ∧
        Leaves cs cs' (rootMarks cs) r' := by
  cases h with
  | nil => exact .inl (.refl .nil)
  | @cons c r r' rest =>
    by_cases mark : c = '@'
    · subst mark
      rcases marked_cases ['r', 'o', 'o', 't'] (by decide) rest with
        ⟨d, s, s', separator, rfl, rfl, tail⟩ | ⟨ne, ne'⟩
      · have root (s : List Char) : (rootStep ('@' :: (['r', 'o', 'o', 't'] ++ d :: s))).2 = s := by
          simp [rootStep, separator]
        have left : Leaves ('@' :: (['r', 'o', 'o', 't'] ++ d :: s))
            ('@' :: (['r', 'o', 'o', 't'] ++ d :: s')) s s' :=
          .behind ['@', 'r', 'o', 'o', 't', d] tail
        rw [rootMarks, rootMarks, root, root]
        rcases loopMarks_leaves tail with left' | ⟨t, t', rfl, rfl, foreign, below⟩
        · exact .inl (left.trans left')
        · rw [loopMarks_at foreign]
          exact .inr ⟨t', redirection, foreign, by simp [detours],
            upSteps_detour (by simp [detours]) t', left.trans (.splice below)⟩
      · rw [rootMarks, rootMarks, rootStep_of_ne ne, rootStep_of_ne ne']
        exact .inl ((Leaves.tail rest).trans (upSteps_leaves rest))
    · have none (r : List Char) : rootStep (c :: r) = (⟨[], []⟩, c :: r) := by
        rw [rootStep.eq_def]
        split
        · next same => exact absurd (List.cons.inj same).1 mark
        · rfl
      rw [rootMarks, rootMarks, none, none, loopMarks, loopMarks, loopStep_of_ne mark,
        loopStep_of_ne mark]
      exact .inl (upSteps_leaves (.cons c rest))
  | @splice r r' foreign rest =>
    rw [rootMarks, rootStep_of_ne foreign.not_root, loopMarks_at foreign]
    exact .inr ⟨r', _, foreign, List.mem_cons_self, upSteps_detour List.mem_cons_self r',
      .splice rest⟩

/-! ### Paths -/

theorem keyName?_of_word {w : List Char} (ne : w ≠ []) (all : w.all isSymbol = true)
    (r : List Char) : keyName? (w ++ '.' :: r) = some ((w, String.ofList w), '.' :: r) := by
  have symbols := List.all_eq_true.mp all
  have word : word? (w ++ '.' :: r) = some (String.ofList w, '.' :: r) := by
    rw [word?, List.takeWhile_append_of_pos symbols, List.takeWhile_cons_of_neg (by decide),
      List.dropWhile_append_of_pos symbols, List.dropWhile_cons_of_neg (by decide), List.append_nil]
    cases w with
    | nil => exact absurd rfl ne
    | cons => rfl
  cases w with
  | nil => exact absurd rfl ne
  | cons c w =>
    rw [List.cons_append, keyName?_of_symbol (symbols c List.mem_cons_self), ← List.cons_append,
      word]
    simp

/-- A key behind a separator is read, and then those behind it. -/
theorem moreKeys_key {k : List Char × String} {s : List Char} (key : keyName? r = some (k, s))
    (c : Char) (fuel : List Char) (acc : Steps) :
    ∃ acc', moreKeys (c :: fuel) acc ('.' :: r) = moreKeys fuel acc' s := by
  obtain ⟨written, name⟩ := k
  refine ⟨⟨acc.written ++ '.' :: written, acc.steps ++ keySteps name⟩, ?_⟩
  rw [moreKeys, if_pos (by decide)]
  simp only [key]

/-- Behind a detour, the keys are read that stand behind it. -/
theorem moreKeys_detour {detour : List Char} (mem : detour ∈ detours) {k : List Char × String}
    {s : List Char} (key : keyName? r = some (k, s)) :
    ∃ k' s', keyName? (detour ++ r) = some (k', s') ∧ ∀ acc, ∃ acc' fuel,
      moreKeys s' acc s' = moreKeys fuel acc' s ∧ r.length ≤ fuel.length := by
  have inner : keyName? (contextKey.toList ++ '.' :: r) =
      some ((contextKey.toList, contextKey), '.' :: r) := by
    rw [keyName?_of_word (by decide) (by decide), String.ofList_toList]
  simp only [detours, List.mem_cons, List.not_mem_nil, or_false] at mem
  rcases mem with rfl | rfl
  · refine ⟨_, _, by rwa [List.append_assoc], fun acc => ?_⟩
    obtain ⟨acc', same⟩ := moreKeys_key key '.' r acc
    exact ⟨acc', r, same, Nat.le_refl _⟩
  · have whole :
        redirection ++ r = ['r', 'o', 'o', 't'] ++ '.' :: (contextKey.toList ++ '.' :: r) := rfl
    refine ⟨_, _, by rw [whole]; exact keyName?_of_word (by decide) (by decide) _, fun acc => ?_⟩
    obtain ⟨acc₁, outer⟩ := moreKeys_key inner '.' (contextKey.toList ++ '.' :: r) acc
    obtain ⟨acc₂, same⟩ := moreKeys_key key '_' ((contextKey.toList ++ '.' :: r).tail) acc₁
    exact ⟨acc₂, _, outer.trans same, by simp⟩

theorem path?_of_no_key (none : keyName? (rootMarks (currentMark cs).2) = none) :
    path? cs = .none := by
  simp only [rootMarks, loopMarks] at none
  simp only [path?, none]

/-- A path ends where its keys do. -/
theorem path?_of_key {k : List Char × String} {s : List Char}
    (key : keyName? (rootMarks (currentMark cs).2) = some (k, s)) :
    ∃ p acc, path? cs = some (p, (moreKeys s acc s).2) := by
  obtain ⟨written, name⟩ := k
  simp only [rootMarks, loopMarks] at key
  exact ⟨_, ⟨written, keySteps name⟩, by simp only [path?, key]; rfl⟩

/-- A name follows the at sign of a reference that is redirected. -/
theorem Foreign.keyName?_ne_none (foreign : Foreign cs) : keyName? cs ≠ none := by
  obtain ⟨c, r, rfl, start⟩ := foreign.starts
  have symbol : isSymbol c = true := by
    simp only [isNameStart, Bool.or_eq_true] at start
    rcases start with letter | underscore
    · simp [isSymbol, Char.isAlphanum, letter]
    · simp [isSymbol, underscore]
  rw [keyName?_of_symbol symbol, word?, List.takeWhile_cons_of_pos symbol]
  exact Option.some_ne_none _

/-- Paths end alike. -/
theorem path?_alike (h : Redirected cs cs') :
    ReadsAlike (fun _ _ => True) cs cs' (path? cs) (path? cs') := by
  have current := currentMark_leaves h
  rcases rootMarks_leaves current.rest with marks | ⟨r', detour, foreign, mem, same, marks⟩
  · refine .behind (current.trans marks) ?_
    rcases (keyName?_alike marks.rest).cases with
      ⟨none, none'⟩ | ⟨k, k', s, s', key, key', -, left, shorter⟩
    · rw [path?_of_no_key none, path?_of_no_key none']
      exact .refused
    · obtain ⟨p, acc, path⟩ := path?_of_key key
      obtain ⟨p', acc', path'⟩ := path?_of_key key'
      have keys := moreKeys_leaves acc acc' left.rest (Nat.le_refl _) (Nat.le_refl _)
      rw [path, path']
      exact .read trivial (left.trans keys) (Nat.lt_of_le_of_lt keys.length_le shorter)
  · refine .behind (current.trans marks) ?_
    rcases (keyName?_alike marks.rest).cases with
      ⟨none, -⟩ | ⟨k, k', s, s', key, key', -, left, shorter⟩
    · exact absurd none foreign.keyName?_ne_none
    · obtain ⟨d, t, first, passed⟩ := moreKeys_detour mem key'
      obtain ⟨p, acc, path⟩ := path?_of_key key
      obtain ⟨p', acc', path'⟩ := path?_of_key (same ▸ first)
      obtain ⟨acc'', fuel, behind, enough⟩ := passed acc'
      have keys := moreKeys_leaves acc acc'' left.rest (Nat.le_refl _)
        (Nat.le_trans left.length_le' enough)
      rw [path, path', behind]
      exact .read trivial (left.trans keys) (Nat.lt_of_le_of_lt keys.length_le shorter)

end Promptry.Template
