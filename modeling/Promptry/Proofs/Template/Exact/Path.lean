import Promptry.Proofs.Template.Exact.Alone
import Promptry.Proofs.Template.Exact.Basic

/-!
Paths with references redirected, exactly. A path comes out as it is if its text does, and as a path
into the context object if it is a reference that the search finds. Main statements:
`Path.redirect_of_not_mem`, `Path.redirect_of_foreign` and `path?_follows`.
-/

namespace Promptry.Template

open DataVariables

variable {cs cs' r r' s v w : List Char}

/-! ### References -/

/-- A text with the redirection put in behind its first at sign. -/
def putIn : List Char → List Char
  | [] => []
  | c :: cs => if c = '@' then '@' :: (redirection ++ cs) else c :: putIn cs

/-- The path that is followed in place of one: a data variable that is not one of the language's own
is a key of the context object in the root. -/
def Path.redirect (p : Path) : Path :=
  match p.loopVariable? with
  | some (0, name) =>
      if ownVariables.contains name then p
      else ⟨String.ofList (putIn p.text.toList), .root :: .key contextKey :: p.steps.tail⟩
  | _ => p

/-- A name of a data variable as the search knows it, with no other characters of names behind
it. -/
def namesPlainly (cs : List Char) : Bool :=
  match cs.takeWhile isNameChar with
  | [] => false
  | c :: w =>
      isNameStart c && String.ofList (c :: w) != "this" && endsWord (cs.dropWhile isNameChar)

/-- A path that the search reads as the template language does: no quotes, and an at sign only in
front of a plain name or of steps up. -/
def Path.isTidy (p : Path) : Bool :=
  p.text.toList.all (fun c => c != '"' && c != '\'') &&
    match (currentMark p.text.toList).2 with
    | '@' :: r => !r.contains '@' && (r.head? == some '.' || namesPlainly r)
    | r => !r.contains '@'

theorem putIn_append (plain : '@' ∉ w) (cs : List Char) :
    putIn (w ++ '@' :: cs) = w ++ '@' :: (redirection ++ cs) := by
  induction w with
  | nil => rfl
  | cons c w ih =>
    obtain ⟨ne, plain⟩ := List.ne_and_not_mem_of_not_mem_cons plain
    rw [List.cons_append, putIn, if_neg ne.symm, ih plain, List.cons_append]

theorem isSymbol_of_isNameChar {c : Char} (name : isNameChar c = true) : isSymbol c = true := by
  simp only [isNameChar, Bool.or_eq_true] at name
  rcases name with (letter | underscore) | dash
  · simp [isSymbol, letter]
  · simp [isSymbol, underscore]
  · simp [isSymbol, dash]

theorem currentMark_plain (cs : List Char) : '@' ∉ (currentMark cs).1 := by
  rw [currentMark.eq_def]
  split
  · split
    · next separator => simpa using (separator_ne_at separator).symm
    · exact List.not_mem_nil
  · simp
  · exact List.not_mem_nil

theorem currentMark_at {front : List Char} (mark : currentMark cs = (front, '@' :: r))
    (s : List Char) : currentMark (front ++ '@' :: s) = (front, '@' :: s) := by
  rw [currentMark.eq_def] at mark
  split at mark
  · split at mark
    · next separator =>
      cases mark
      simp [currentMark, separator]
    · cases mark
  · cases mark
    rfl
  · cases mark
    rfl

/-- The marks behind the one of the current context. -/
theorem marks_of_mark {front : List Char} (mark : currentMark cs = (front, r)) :
    marks cs = ((⟨front, []⟩ : Steps).append
      (Marking.andThen rootStep (Marking.andThen loopStep upSteps) r).1,
      (Marking.andThen rootStep (Marking.andThen loopStep upSteps) r).2) := by
  rw [marks, Marking.andThen, currentStep, mark]

theorem upSteps_of_head {c : Char} (ne : c ≠ '.') (r : List Char) :
    upSteps (c :: r) = ({}, c :: r) :=
  upSteps_of_ne fun _ _ _ same => ne (List.cons.inj same).1

theorem Foreign.upSteps (foreign : Foreign r) : upSteps r = ({}, r) := by
  obtain ⟨c, s, rfl, start⟩ := foreign.starts
  exact upSteps_of_head (by rintro rfl; exact absurd start (by decide)) s

section

variable {front : List Char} (mark : currentMark (front ++ '@' :: v) = (front, '@' :: v))
include mark

theorem marks_foreign (foreign : Foreign r) :
    marks (front ++ '@' :: r) = (⟨front ++ ['@'], [.loop]⟩, r) := by
  rw [marks_of_mark (currentMark_at mark r), Marking.andThen, rootStep_of_ne foreign.not_root,
    Marking.andThen, loopStep, foreign.upSteps]
  simp [Steps.append]

theorem marks_redirected (r : List Char) : marks (front ++ '@' :: (redirection ++ r)) =
    (⟨front ++ ['@', 'r', 'o', 'o', 't', '.'], [.root]⟩, contextKey.toList ++ '.' :: r) := by
  have root : rootStep ('@' :: (redirection ++ r)) =
      (⟨['@', 'r', 'o', 'o', 't', '.'], [.root]⟩, '_' :: ((contextKey.toList ++ '.' :: r).tail)) :=
    rfl
  rw [marks_of_mark (currentMark_at mark _), Marking.andThen, root, Marking.andThen,
    loopStep_of_ne (by decide), upSteps_of_head (by decide)]
  simp [Steps.append]
  rfl

variable {k : List Char × String} {s : List Char} (key : keyName? r = some (k, s)) {keys : Steps}
  (more : moreKeys s {} s = (keys, []))
include key more

/-- A reference that is redirected, as it was. -/
theorem path?_foreign (foreign : Foreign r) : path? (front ++ '@' :: r) =
    some (⟨String.ofList (front ++ '@' :: r), .loop :: (keySteps k.2 ++ keys.steps)⟩, []) := by
  have spelled := moreKeys_spells s {} s
  rw [more, List.append_nil, List.nil_append] at spelled
  rw [path?_of_marks (marks_foreign mark foreign) key more, keyName?_spells key, ← spelled]
  simp

/-- A reference that is redirected, as it comes out. -/
theorem path?_redirected : path? (front ++ '@' :: (redirection ++ r)) =
    some (⟨String.ofList (front ++ '@' :: (redirection ++ r)),
      .root :: .key contextKey :: (keySteps k.2 ++ keys.steps)⟩, []) := by
  have spelled := moreKeys_spells s {} s
  rw [more, List.append_nil, List.nil_append] at spelled
  have first : keyName? (contextKey.toList ++ '.' :: r) =
      some ((contextKey.toList, contextKey), '.' :: r) := by
    rw [keyName?_of_word (by decide) (by decide), String.ofList_toList]
  have others : moreKeys ('.' :: r) {} ('.' :: r) =
      (⟨'.' :: (k.1 ++ keys.written), keySteps k.2 ++ keys.steps⟩, []) := by
    have room := (keyName?_shorter key).le
    have more' : moreKeys r {} s = (keys, []) :=
      moreKeys_alone (r := []) {} (Nat.le_refl _) room (by simpa using more)
    obtain ⟨written, name⟩ := k
    rw [moreKeys, if_pos (by decide), key]
    dsimp only
    rw [moreKeys_append, more']
    simp [Steps.append]
  rw [path?_of_marks (marks_redirected mark r) first others, keyName?_spells key, ← spelled]
  simp [redirection, contextKey, keySteps]

end

/-! #### Names -/

theorem namesPlainly_iff : namesPlainly r = true ↔
    ∃ c w, r.takeWhile isNameChar = c :: w ∧ isNameStart c = true ∧
      String.ofList (c :: w) ≠ "this" ∧ endsWord (r.dropWhile isNameChar) = true := by
  rw [namesPlainly]
  cases r.takeWhile isNameChar with
  | nil => simp
  | cons c w => simp [and_assoc]

theorem endsWord_iff : endsWord r = true ↔ r.takeWhile isSymbol = [] := by
  cases r with
  | nil => simp [endsWord]
  | cons c r => simp [endsWord, List.takeWhile_cons]

/-- A plain name is the key that the template language reads there. -/
theorem keyName?_of_namesPlainly (plain : namesPlainly r = true) :
    keyName? r = some ((r.takeWhile isNameChar, String.ofList (r.takeWhile isNameChar)),
      r.dropWhile isNameChar) := by
  obtain ⟨c, w, name, start, -, ends⟩ := namesPlainly_iff.mp plain
  have symbols : ∀ d ∈ r.takeWhile isNameChar, isSymbol d = true := fun d mem =>
    isSymbol_of_isNameChar (List.mem_takeWhile_imp mem)
  have whole := List.takeWhile_append_dropWhile (p := isNameChar) (l := r)
  have word : r.takeWhile isSymbol = r.takeWhile isNameChar := by
    conv_lhs => rw [← whole]
    rw [List.takeWhile_append_of_pos symbols, endsWord_iff.mp ends, List.append_nil]
  have behind : r.dropWhile isSymbol = r.dropWhile isNameChar := by
    have both := List.takeWhile_append_dropWhile (p := isSymbol) (l := r)
    rw [word] at both
    exact List.append_cancel_left (both.trans whole.symm)
  have ne : ∀ s, r ≠ ['['] ++ s := by
    rintro s rfl
    cases name
  rw [keyName?_of_ne ne, word?, word, behind, name]
  simp

/-! #### Paths that stay -/

theorem loopVariable?_steps {p : Path} {name : String} (found : p.loopVariable? = some (0, name)) :
    ∃ t, p.steps = .loop :: .key name :: t := by
  rw [Path.loopVariable?] at found
  split at found
  · next rest loop =>
    split at found
    · next k t behind =>
      obtain ⟨none, rfl⟩ : rest.takeWhile (· == .up) = [] ∧ k = name := by simpa using found
      have whole := List.takeWhile_append_dropWhile (p := (· == Step.up)) (l := rest)
      rw [none, behind, List.nil_append] at whole
      exact ⟨t, by rw [loop, ← whole]⟩
    · cases found
  · cases found

theorem moreKeys_steps (fuel : List Char) (acc : Steps) (cs : List Char) {x : Step}
    (mem : x ∈ (moreKeys fuel acc cs).1.steps) : x ∈ acc.steps ∨ ∃ name, x = .key name := by
  fun_induction moreKeys fuel acc cs with
  | case1 acc _ fuel c r _ written name rest _ ih =>
    refine (ih mem).elim (fun front => ?_) .inr
    rw [keySteps] at front
    split at front
    · exact .inl (by simpa using front)
    · exact (List.mem_append.mp front).imp_right fun last => ⟨name, List.mem_singleton.mp last⟩
  | case2 => exact .inl mem
  | case3 => exact .inl mem
  | case4 => exact .inl mem

theorem upSteps_steps (cs : List Char) :
    upSteps cs = ({}, cs) ∨ ∃ more, (upSteps cs).1.steps = .up :: more := by
  rw [upSteps.eq_def]
  split
  · split
    · exact .inr ⟨_, rfl⟩
    · exact .inl rfl
  · exact .inl rfl

theorem rootStep_steps (cs : List Char) :
    rootStep cs = ({}, cs) ∨ (rootStep cs).1.steps = [.root] := by
  rw [rootStep.eq_def]
  split
  · split
    · exact .inr rfl
    · exact .inl rfl
  · exact .inl rfl

/-- Where a path names a loop variable of its own context, an at sign and a key stand behind the
mark of that context. -/
theorem reference_of_loopVariable? {p : Path} {name : String} (read : path? cs = some (p, v))
    (found : p.loopVariable? = some (0, name)) :
    ∃ r k s, (currentMark cs).2 = '@' :: r ∧ keyName? r = some (k, s) ∧
      (k.2 = "this" ∨ k.2 = name) := by
  obtain ⟨t, steps⟩ := loopVariable?_steps found
  rw [path?_eq] at read
  obtain ⟨⟨k, s⟩, key, same⟩ := Option.map_eq_some_iff.mp read
  obtain ⟨rfl, -⟩ := Prod.mk.inj same
  simp only [marks, Marking.andThen, currentStep, Steps.append, List.nil_append] at steps key
  -- keys are no marks
  have keysOnly : ∀ x ∈ (moreKeys s {} s).1.steps, ∃ name, x = .key name := fun x mem =>
    (moreKeys_steps s {} s mem).resolve_left List.not_mem_nil
  generalize (moreKeys s {} s).1.steps = keys at steps keysOnly
  have noLoop : ∀ t, keySteps k.2 ++ keys ≠ .loop :: t := by
    intro t spelled
    have mem : Step.loop ∈ keySteps k.2 ++ keys := spelled ▸ List.mem_cons_self
    rw [keySteps] at mem
    rcases List.mem_append.mp mem with here | there
    · split at here
      · cases here
      · cases List.mem_singleton.mp here
    · obtain ⟨name, same⟩ := keysOnly _ there
      cases same
  rcases rootStep_steps (currentMark cs).2 with none | root
  · rw [none] at steps key
    simp only [List.nil_append, List.append_assoc] at steps key
    by_cases mark : ∃ r, (currentMark cs).2 = '@' :: r
    · obtain ⟨r, mark⟩ := mark
      rw [mark, loopStep] at steps key
      simp only [List.cons_append, List.nil_append, List.cons.injEq, true_and] at steps key
      rcases upSteps_steps r with here | ⟨more, up⟩
      · rw [here] at steps key
        refine ⟨r, k, s, mark, key, ?_⟩
        rw [keySteps] at steps
        split at steps
        · exact .inl ‹_›
        · cases steps
          exact .inr rfl
      · rw [up] at steps
        cases steps
    · have unmarked : loopStep (currentMark cs).2 = ({}, (currentMark cs).2) := by
        rw [loopStep.eq_def]
        split
        · next r same => exact absurd ⟨r, same⟩ mark
        · rfl
      rw [unmarked] at steps
      simp only [List.nil_append] at steps
      rcases upSteps_steps (currentMark cs).2 with here | ⟨more, up⟩
      · rw [here] at steps
        exact absurd steps (noLoop _)
      · rw [up] at steps
        cases steps
  · rw [root] at steps
    cases steps

theorem Path.redirect_of_own {p : Path}
    (own : ∀ name, p.loopVariable? = some (0, name) → ownVariables.contains name = true) :
    p.redirect = p := by
  rw [redirect]
  split
  · next name found => rw [if_pos (own name found)]
  · rfl

/-- A path without at signs stays. -/
theorem Path.redirect_of_not_mem {p : Path} (read : path? cs = some (p, v)) (plain : '@' ∉ cs) :
    p.redirect = p := by
  refine redirect_of_own fun name found => ?_
  obtain ⟨r, k, s, mark, -⟩ := reference_of_loopVariable? read found
  have spelled := currentMark_spells cs
  rw [mark] at spelled
  exact absurd (spelled ▸ List.mem_append_right _ List.mem_cons_self) plain

section

variable {front : List Char} {p : Path}

/-- Steps up behind the at sign lead to a loop variable of another context. -/
theorem Path.redirect_of_up (mark : currentMark cs = (front, '@' :: '.' :: r))
    (read : path? cs = some (p, v)) : p.redirect = p := by
  refine redirect_of_own fun name found => ?_
  obtain ⟨s, k, t, mark', key, -⟩ := reference_of_loopVariable? read found
  rw [mark] at mark'
  cases mark'
  rw [keyName?_of_ne (by simp), word?, List.takeWhile_cons_of_neg (by decide)] at key
  cases key

/-- A plain name that the search leaves alone. -/
theorem Path.redirect_of_not_foreign (mark : currentMark cs = (front, '@' :: r))
    (plain : namesPlainly r = true) (own : ¬ Foreign r) (read : path? cs = some (p, v)) :
    p.redirect = p := by
  refine redirect_of_own fun name found => ?_
  obtain ⟨s, k, t, mark', key, named⟩ := reference_of_loopVariable? read found
  rw [mark] at mark'
  cases mark'
  rw [keyName?_of_namesPlainly plain] at key
  obtain ⟨c, w, same, start, ne, -⟩ := namesPlainly_iff.mp plain
  cases key
  rw [same] at named
  rw [← named.resolve_left ne, ← Decidable.not_not (p := _ = true), ← same]
  intro other
  refine own ⟨?_, by simpa using other⟩
  cases r with
  | nil => cases same
  | cons d r =>
    rw [List.takeWhile_cons] at same
    split at same
    · cases same
      exact ⟨_, _, rfl, start⟩
    · cases same

/-- A plain name that the search finds. -/
theorem Path.redirect_of_foreign (mark : currentMark p.text.toList = (front, '@' :: r))
    (plain : namesPlainly r = true) (foreign : Foreign r)
    (read : path? p.text.toList = some (p, [])) :
    p.redirect.text.toList = front ++ '@' :: (redirection ++ r) ∧
      path? p.redirect.text.toList = some (p.redirect, []) := by
  have spelled := currentMark_spells p.text.toList
  rw [mark] at spelled
  have mark' : currentMark (front ++ '@' :: r) = (front, '@' :: r) := by rwa [← spelled] at mark
  have key := keyName?_of_namesPlainly plain
  obtain ⟨c, w, name, -, ne, -⟩ := namesPlainly_iff.mp plain
  have whole := read
  rw [← spelled, path?_eq, marks_foreign mark' foreign, key] at whole
  have more : moreKeys (r.dropWhile isNameChar) {} (r.dropWhile isNameChar) =
      ((moreKeys (r.dropWhile isNameChar) {} (r.dropWhile isNameChar)).1, []) :=
    Prod.ext rfl (Prod.mk.inj (Option.some.inj whole)).2
  have before := path?_foreign mark' key more foreign
  have after := path?_redirected mark' key more
  rw [spelled, read, Option.some.injEq, Prod.mk.injEq] at before
  have steps := congrArg Path.steps before.1
  have noAt : '@' ∉ front := by
    have none := currentMark_plain p.text.toList
    rwa [mark] at none
  have found : p.loopVariable? = some (0, String.ofList (r.takeWhile isNameChar)) := by
    rw [Path.loopVariable?, steps, keySteps, name, if_neg ne]
    simp
  have redirected : p.redirect = ⟨String.ofList (front ++ '@' :: (redirection ++ r)),
      .root :: .key contextKey :: p.steps.tail⟩ := by
    rw [redirect, found]
    simp only [foreign.other, Bool.false_eq_true, if_false]
    rw [← spelled, putIn_append noAt]
  rw [redirected, String.toList_ofList, after, steps]
  exact ⟨rfl, rfl⟩

end

/-! ### Reading on -/

/-- What a tidy path holds behind the mark of the current context. -/
theorem Path.isTidy_cases {p : Path} (tidy : p.isTidy = true) :
    (∀ c ∈ p.text.toList, c ≠ '"' ∧ c ≠ '\'') ∧
      ('@' ∉ p.text.toList ∨ ∃ front r, currentMark p.text.toList = (front, '@' :: r) ∧ '@' ∉ r ∧
        ((∃ s, r = '.' :: s) ∨ namesPlainly r = true)) := by
  have whole := currentMark_spells p.text.toList
  have noAt := currentMark_plain p.text.toList
  obtain ⟨quotes, shape⟩ := Bool.and_eq_true_iff.mp tidy
  refine ⟨by simpa using quotes, ?_⟩
  split at shape
  · next r mark =>
    refine .inr ⟨_, r, Prod.ext rfl mark, ?_⟩
    simpa [List.head?_eq_some_iff] using shape
  · refine .inl ?_
    rw [← whole, List.mem_append, not_or]
    exact ⟨noAt, by simpa using shape⟩

/-- The symbols behind an at sign are a part of the path. -/
theorem symbols_inside {front : List Char} {p : Path} {c : Char} {y : List Char}
    (symbol : isSymbol c = true) (mark : currentMark cs = (front, '@' :: c :: y))
    (read : path? cs = some (p, r)) :
    ((c :: y).takeWhile isSymbol).length + r.length ≤ (c :: y).length := by
  have plain {d : Char} (other : isSymbol d = false) : c ≠ d := by
    rintro rfl
    rw [other] at symbol
    cases symbol
  rw [path?_eq, marks_of_mark mark] at read
  obtain ⟨⟨k, s⟩, key, same⟩ := Option.map_eq_some_iff.mp read
  obtain ⟨-, rfl⟩ := Prod.mk.inj same
  have fewer := (moreKeys_suffix {} (Nat.le_refl s.length)).length_le
  by_cases root : ∃ d z, isSeparator d = true ∧ c :: y = ['r', 'o', 'o', 't'] ++ d :: z
  · obtain ⟨d, z, separator, spelled⟩ := root
    have ends : isSymbol d = false := by
      simp only [isSeparator, Bool.or_eq_true, beq_iff_eq] at separator
      rcases separator with rfl | rfl <;> decide
    have behind := congrArg List.length ((marking_loopStep.both marking_upSteps).spells z)
    have step : rootStep ('@' :: c :: y) = (⟨['@', 'r', 'o', 'o', 't', d], [.root]⟩, z) := by
      rw [spelled]
      simp [rootStep, separator]
    rw [Marking.andThen, step] at key
    have less := keyName?_shorter key
    have letters : ['r', 'o', 'o', 't'].all isSymbol = true := by decide
    rw [spelled, List.takeWhile_append_of_pos (List.all_eq_true.mp letters),
      List.takeWhile_cons_of_neg (ne_true_of_eq_false ends)]
    simp only [List.length_append, List.length_cons, List.length_nil] at *
    omega
  · rw [Marking.andThen, rootStep_of_ne fun d z separator same => root ⟨d, z, separator, same⟩,
      Marking.andThen, loopStep, upSteps_of_head (plain (by decide)),
      keyName?_of_symbol symbol, word?] at key
    have both := congrArg List.length
      (List.takeWhile_append_dropWhile (p := isSymbol) (l := c :: y))
    rw [List.length_append] at both
    have left : s = (c :: y).dropWhile isSymbol := by
      split at key
      · cases key
      · cases key
        rfl
    rw [← left] at both
    omega

theorem takeWhile_append_of_le {p : Char → Bool}
    (inside : ((cs ++ r).takeWhile p).length ≤ cs.length) :
    (cs ++ r).takeWhile p = cs.takeWhile p := by
  rw [List.takeWhile_append] at inside ⊢
  split
  · next whole =>
    rw [if_pos whole, List.length_append] at inside
    have none : r.takeWhile p = [] := List.eq_nil_of_length_eq_zero (by omega)
    rw [none, List.append_nil, (List.takeWhile_prefix p).eq_of_length whole]
  · rfl

/-- Whether a reference is redirected is told by the path alone. -/
theorem foreign_iff_of_read {front : List Char} {p : Path}
    (mark : currentMark p.text.toList = (front, '@' :: v)) (plain : namesPlainly v = true)
    (read : path? (p.text.toList ++ r) = some (p, r)) : Foreign (v ++ r) ↔ Foreign v := by
  obtain ⟨c, w, name, -, -, -⟩ := namesPlainly_iff.mp plain
  obtain ⟨y, rfl⟩ : ∃ y, v = c :: y := by
    obtain ⟨y, spelled⟩ := List.takeWhile_prefix isNameChar (l := v)
    exact ⟨w ++ y, by rw [← spelled, name, List.cons_append]⟩
  have first : isNameChar c = true := List.mem_takeWhile_imp (name ▸ List.mem_cons_self)
  have spelled := currentMark_spells p.text.toList
  rw [mark] at spelled
  have mark' : currentMark (p.text.toList ++ r) = (front, '@' :: c :: (y ++ r)) := by
    rw [← spelled, List.append_assoc]
    exact currentMark_at mark _
  have inside := symbols_inside (isSymbol_of_isNameChar first) mark' read
  -- the characters of names are symbols
  have fewer : ((c :: (y ++ r)).takeWhile isNameChar).length ≤
      ((c :: (y ++ r)).takeWhile isSymbol).length := by
    conv_rhs => rw [← List.takeWhile_append_dropWhile (p := isNameChar) (l := c :: (y ++ r))]
    rw [List.takeWhile_append_of_pos fun d mem =>
      isSymbol_of_isNameChar (List.mem_takeWhile_imp mem), List.length_append]
    exact Nat.le_add_right _ _
  refine foreign_append_iff (List.cons_ne_nil c y) (takeWhile_append_of_le ?_)
  simp only [List.cons_append, List.length_cons, List.length_append] at *
  omega

theorem follows_of_alone {strict : Prop} {p q : Path} (read : path? (w ++ r) = some (p, r))
    (alone : path? v = some (q, [])) (renamed : Renamed w v)
    (scanned : ∀ r', Scanned strict r r' (w ++ r) (v ++ r')) :
    Follows strict path? (w ++ r) q r := by
  intro r' tail
  have reads := path?_alike ((scanned r').redirected tail)
  rw [read] at reads
  obtain ⟨b, found, -⟩ := reads.rest_eq renamed tail
  have same := path?_alone (v := []) found
  rw [alone] at same
  cases same
  exact ⟨v ++ r', scanned r', found⟩

/-- A path is read as the one that the search makes of it. -/
theorem path?_follows {strict : Prop} {p : Path} (read : path? cs = some (p, r))
    (tame : Tame strict cs r (p.isTidy = true)) : Follows strict path? cs p.redirect r := by
  have alone := path?_text read
  obtain rfl := path?_spells read
  have spelled := currentMark_spells p.text.toList
  rcases tame.cases with tidy | ⟨loose, noAt⟩
  · obtain ⟨quotes, noAt | ⟨front, v, mark, noAt, kind⟩⟩ := Path.isTidy_cases tidy
    · rw [Path.redirect_of_not_mem alone noAt]
      refine follows_of_alone read alone (.refl _) fun r' => .stretch noAt (fun _ => ?_) r r'
      exact List.all_eq_true.mpr fun c mem =>
        isBare_iff.mpr ⟨fun same => noAt (same ▸ mem), quotes c mem⟩
    · rw [mark] at spelled
      have front_noAt : '@' ∉ front := by
        have none := currentMark_plain p.text.toList
        rwa [mark] at none
      have bare {w : List Char} (noAt : '@' ∉ w) (part : w ⊆ p.text.toList) :
          w.all isBare = true :=
        List.all_eq_true.mpr fun c mem =>
          isBare_iff.mpr ⟨fun same => noAt (same ▸ mem), quotes c (part mem)⟩
      have front_bare := bare front_noAt (by rw [← spelled]; simp)
      have behind_bare := bare noAt (by rw [← spelled]; simp)
      have whole (s : List Char) : p.text.toList ++ s = front ++ '@' :: (v ++ s) := by
        rw [← spelled, List.append_assoc, List.cons_append]
      have stays (own : ¬ Foreign (v ++ r)) (same : p.redirect = p) :
          Follows strict path? (p.text.toList ++ r) p.redirect r := by
        rw [same]
        refine follows_of_alone read alone (.refl _) fun r' => ?_
        rw [whole, whole]
        exact (Scanned.own own (.bare behind_bare r r')).trans (.bare front_bare _ _)
      rcases kind with ⟨s, rfl⟩ | plain
      · refine stays ?_ (Path.redirect_of_up mark alone)
        rintro ⟨⟨c, t, same, start⟩, -⟩
        obtain ⟨rfl, -⟩ := List.cons.inj same
        exact absurd start (by decide)
      · have told := foreign_iff_of_read mark plain read
        by_cases foreign : Foreign v
        · obtain ⟨text, alone'⟩ := Path.redirect_of_foreign mark plain foreign alone
          rw [text] at alone'
          refine follows_of_alone read alone' ?_ fun r' => ?_
          · rw [← spelled]
            exact (Spliced.refl front).append (.splice trivial (.refl v))
          · rw [whole, List.append_assoc, List.cons_append, List.append_assoc]
            exact (Scanned.foreign (told.mpr foreign) (.bare behind_bare r r')).trans
              (.bare front_bare _ _)
        · exact stays (mt told.mp foreign) (Path.redirect_of_not_foreign mark plain foreign alone)
  · rw [Path.redirect_of_not_mem alone noAt]
    exact follows_of_alone read alone (.refl _) fun r' =>
      .stretch noAt (fun holds => absurd holds loose) r r'

end Promptry.Template
