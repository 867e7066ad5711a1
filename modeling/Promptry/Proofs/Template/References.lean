import Mathlib.Data.List.TakeWhile
import Promptry.Template.References

/-!
Which references the search in the text of a template finds: all that stand in it, wherever they
do, since none starts within another one. Main statements: `name?_eq_some_iff`, what a reference is
made of, and `mem_ofTemplate_iff`.
-/

namespace Promptry.Template.References

variable {cs rest : List Char} {name : String}

/-! ### Names once each -/

/-- The distinct items of a list, those seen before left out. -/
theorem distinct_eq_eraseDups (seen xs : List String) :
    distinct seen xs = (xs.filter fun x => !seen.contains x).eraseDups := by
  induction xs generalizing seen with
  | nil => rfl
  | cons x xs ih =>
    rw [distinct]
    by_cases known : seen.contains x = true
    · rw [if_pos known, List.filter_cons_of_neg (by simpa using known)]
      exact ih seen
    · have same : (fun y => !(x :: seen).contains y) = fun y => !y == x && !seen.contains y := by
        funext y
        rw [List.contains_cons, Bool.not_or]
      rw [if_neg known, List.filter_cons_of_pos (by simpa using known), List.eraseDups_cons,
        List.filter_filter, ih, same]

theorem distinct_nil_eq_eraseDups (xs : List String) : distinct [] xs = xs.eraseDups := by
  rw [distinct_eq_eraseDups]
  congr 1
  exact List.filter_eq_self.mpr fun _ _ => rfl

/-! ### One reference -/

/-- What may stand between the braces and the `>`. -/
def marks : List (List Char) := [[], ['~'], ['#'], ['~', '#']]

theorem dropOne_self (c : Char) (cs : List Char) : dropOne c (c :: cs) = cs := by
  simp [dropOne]

theorem dropOne_of_ne {c d : Char} (h : d ≠ c) (cs : List Char) :
    dropOne c (d :: cs) = d :: cs := by
  simp [dropOne, h]

theorem dropOne_eq_or (c : Char) (cs : List Char) :
    cs = c :: dropOne c cs ∨ cs = dropOne c cs := by
  cases cs with
  | nil => exact .inr rfl
  | cons d cs =>
    by_cases h : d = c
    · subst h
      exact .inl (by rw [dropOne_self])
    · exact .inr (by rw [dropOne_of_ne h])

theorem dropOne_mark {mark : List Char} (isMark : mark ∈ marks) (r : List Char) :
    dropOne '#' (dropOne '~' (mark ++ '>' :: r)) = '>' :: r := by
  simp only [marks, List.mem_cons, List.not_mem_nil, or_false] at isMark
  rcases isMark with rfl | rfl | rfl | rfl <;> rfl

theorem exists_mark {r : List Char} (dropped : dropOne '#' (dropOne '~' cs) = '>' :: r) :
    ∃ mark ∈ marks, cs = mark ++ '>' :: r := by
  rcases dropOne_eq_or '~' cs with first | first <;>
    rcases dropOne_eq_or '#' (dropOne '~' cs) with second | second <;> rw [dropped] at second
  · exact ⟨['~', '#'], by decide, by rw [first, second]; rfl⟩
  · exact ⟨['~'], by decide, by rw [first, second]; rfl⟩
  · exact ⟨['#'], by decide, by rw [first, second]; rfl⟩
  · exact ⟨[], by decide, by rw [first, second]; rfl⟩

/-- A reference is two braces, marks, a `>`, blanks and a name. -/
theorem name?_eq_some_iff : name? cs = some (name, rest) ↔
    ∃ mark ∈ marks, ∃ r, cs = '\x7b' :: '\x7b' :: (mark ++ '>' :: r) ∧
      (Text.trimStart r).takeWhile isNameChar = name.toList ∧ name.toList ≠ [] ∧
      (Text.trimStart r).dropWhile isNameChar = rest := by
  constructor
  · intro found
    rw [name?] at found
    split at found
    · next opens =>
      obtain ⟨inside, rfl⟩ := (opensTag_iff cs).mp opens
      split at found
      · next r dropped =>
        obtain ⟨mark, isMark, rfl⟩ := exists_mark dropped
        simp only [Option.ite_none_left_eq_some, Option.some.injEq, Prod.mk.injEq,
          List.isEmpty_iff] at found
        obtain ⟨nonempty, rfl, rfl⟩ := found
        exact ⟨mark, isMark, r, rfl, by rw [String.toList_ofList],
          by rwa [String.toList_ofList], rfl⟩
      · cases found
    · cases found
  · rintro ⟨mark, isMark, r, rfl, spelled, nonempty, rfl⟩
    have opens : opensTag ('\x7b' :: '\x7b' :: (mark ++ '>' :: r)) = true := rfl
    rw [name?, if_pos opens, List.drop_succ_cons, List.drop_succ_cons, List.drop_zero,
      dropOne_mark isMark]
    simp only [spelled, String.ofList_toList]
    rw [if_neg (by simpa using nonempty)]

/-- No brace opens within a reference, behind the first two. -/
theorem name?_used (found : name? cs = some (name, rest)) :
    ∃ used, cs = '\x7b' :: '\x7b' :: (used ++ rest) ∧ '\x7b' ∉ used ∧ used ≠ [] := by
  obtain ⟨mark, isMark, r, rfl, spelled, -, rfl⟩ := name?_eq_some_iff.mp found
  refine ⟨mark ++ '>' :: (r.takeWhile Text.isBlank ++ name.toList), ?_, ?_, by simp⟩
  · rw [List.append_assoc, List.cons_append, List.append_assoc, ← spelled,
      List.takeWhile_append_dropWhile, Text.trimStart, List.takeWhile_append_dropWhile]
  · have blanks : '\x7b' ∉ r.takeWhile Text.isBlank := fun mem =>
      absurd (List.mem_takeWhile_imp mem) (by decide)
    have letters : '\x7b' ∉ name.toList := fun mem =>
      absurd (List.mem_takeWhile_imp (spelled ▸ mem)) (by decide)
    have noMark : ∀ mark ∈ marks, '\x7b' ∉ mark := by decide
    simp [noMark mark isMark, blanks, letters]

/-! ### All references -/

/-- A reference to the partial stands somewhere in a text. -/
def Stands (cs : List Char) (name : String) : Prop :=
  ∃ reference rest, reference <:+ cs ∧ name? reference = some (name, rest)

theorem not_stands_nil : ¬ Stands [] name := by
  rintro ⟨reference, rest, suffix, found⟩
  rw [List.suffix_nil.mp suffix] at found
  cases found

theorem stands_cons_of_none {c : Char} (here : name? (c :: cs) = none) :
    Stands (c :: cs) name ↔ Stands cs name := by
  constructor
  · rintro ⟨reference, rest, suffix, found⟩
    rcases List.suffix_cons_iff.mp suffix with rfl | suffix
    · rw [here] at found
      cases found
    · exact ⟨reference, rest, suffix, found⟩
  · rintro ⟨reference, rest, suffix, found⟩
    exact ⟨reference, rest, suffix.trans (List.suffix_cons c cs), found⟩

theorem name?_of_not_opens (h : ∀ r, cs ≠ '\x7b' :: '\x7b' :: r) : name? cs = none := by
  have closed : ¬ opensTag cs = true := fun opens =>
    let ⟨r, same⟩ := (opensTag_iff cs).mp opens
    h r same
  rw [name?, if_neg closed]

/-- No reference starts where no brace opens. -/
theorem stands_append {used : List Char} (free : '\x7b' ∉ used) (rest : List Char) :
    Stands (used ++ rest) name ↔ Stands rest name := by
  induction used with
  | nil => rfl
  | cons c used ih =>
    rw [List.mem_cons, not_or] at free
    have closed : name? (c :: (used ++ rest)) = none :=
      name?_of_not_opens fun r same => free.1 (List.cons.inj same).1.symm
    rw [List.cons_append, stands_cons_of_none closed, ih free.2]

/-- Behind a reference the search goes on where that ends; no other one starts within it. -/
theorem stands_of_found {first : String} (found : name? cs = some (first, rest)) :
    Stands cs name ↔ name = first ∨ Stands rest name := by
  obtain ⟨used, rfl, free, nonempty⟩ := name?_used found
  -- The second brace opens nothing, since what follows it is no brace.
  have second : name? ('\x7b' :: (used ++ rest)) = none := by
    obtain ⟨c, used, rfl⟩ := List.exists_cons_of_ne_nil nonempty
    refine name?_of_not_opens fun r same => ?_
    have brace : c = '\x7b' := (List.cons.inj (List.cons.inj same).2).1
    exact free (brace ▸ List.mem_cons_self)
  rw [← stands_append free rest, ← stands_cons_of_none second]
  constructor
  · rintro ⟨reference, behind, suffix, here⟩
    rcases List.suffix_cons_iff.mp suffix with rfl | suffix
    · rw [found] at here
      exact .inl (Prod.mk.inj (Option.some.inj here)).1.symm
    · exact .inr ⟨reference, behind, suffix, here⟩
  · rintro (rfl | ⟨reference, behind, suffix, here⟩)
    · exact ⟨_, rest, List.suffix_rfl, found⟩
    · exact ⟨reference, behind, suffix.trans (List.suffix_cons _ _), here⟩

theorem length_lt_of_found (found : name? cs = some (name, rest)) : rest.length < cs.length := by
  obtain ⟨used, rfl, -, -⟩ := name?_used found
  simp only [List.length_cons, List.length_append]
  omega

theorem mem_namesFrom_iff {fuel : List Char} (acc : List String)
    (long : cs.length ≤ fuel.length) :
    name ∈ namesFrom fuel acc cs ↔ name ∈ acc ∨ Stands cs name := by
  fun_induction namesFrom fuel acc cs with
  | case1 acc _ fuel c r first rest found ih =>
    have shorter := length_lt_of_found found
    simp only [List.length_cons] at long shorter
    rw [found]
    simp only
    rw [ih (by omega), stands_of_found found, List.mem_cons, or_assoc, or_left_comm]
  | case2 acc _ fuel c r nothing ih =>
    rw [nothing]
    simp only
    rw [ih (by simpa using long), stands_cons_of_none nothing]
  | case3 fuel acc cs short =>
    cases cs with
    | nil => simp [not_stands_nil]
    | cons c r =>
      cases fuel with
      | nil => simp at long
      | cons d fuel => exact absurd rfl (short d fuel c r rfl)

/-- The names that are found are those of the references that stand in the template. -/
theorem mem_ofTemplate_iff {template : String} :
    name ∈ ofTemplate template ↔ Stands template.toList name := by
  rw [ofTemplate, distinct_nil_eq_eraseDups, List.mem_eraseDups,
    mem_namesFrom_iff [] (Nat.le_refl _)]
  simp

-- A blank before the `>` makes no reference, and a dot ends a name.
example : ofTemplate "\x7b\x7b~#>a/b\x7d\x7d\x7b\x7b > c\x7d\x7d\x7b\x7b> d.e\x7d\x7d" =
    ["a/b", "d"] := by decide

end Promptry.Template.References
