import Promptry.Proofs.Template.Alike.Path

/-!
Paths read alone. A path is a mark of the current context, the marks of a reference, steps up, and
keys; each of them is read off what it takes off as it is read off more. So a path is told by its
text. Main statements: `path?_eq`, `path?_alone` and `path?_text`.
-/

namespace Promptry.Template

open DataVariables

variable {cs cs' r r' s v w : List Char}

/-! ### A reader alone -/

section

variable {p : Char → Bool}

theorem takeWhile_alone (left : (cs ++ r).dropWhile p = v ++ r) :
    cs.takeWhile p = (cs ++ r).takeWhile p ∧ cs.dropWhile p = v := by
  rw [List.dropWhile_append] at left
  rw [List.takeWhile_append]
  split at left
  · next whole =>
    have all := List.isEmpty_iff.mp whole
    have none : v = [] ∧ r.dropWhile p = r := by
      have shorter := (List.dropWhile_suffix p (l := r)).length_le
      rw [left, List.length_append] at shorter
      obtain rfl := List.eq_nil_of_length_eq_zero (by omega : v.length = 0)
      exact ⟨rfl, left⟩
    have both := List.takeWhile_append_dropWhile (p := p) (l := r)
    rw [none.2, List.append_left_eq_self] at both
    have both' := List.takeWhile_append_dropWhile (p := p) (l := cs)
    rw [all, List.append_nil] at both'
    rw [both', if_pos rfl, both, List.append_nil]
    exact ⟨rfl, all.trans none.1.symm⟩
  · next some =>
    rw [if_neg, List.append_cancel_right left]
    · exact ⟨rfl, rfl⟩
    · intro whole
      have both := congrArg List.length (List.takeWhile_append_dropWhile (p := p) (l := cs))
      rw [List.length_append] at both
      have none : (cs.dropWhile p).length = 0 := by omega
      exact some (by simpa using none)

end

theorem word?_alone {k : String} (read : word? (cs ++ r) = some (k, v ++ r)) :
    word? cs = some (k, v) := by
  rw [word?] at read
  split at read
  · cases read
  · next nonempty =>
    obtain ⟨rfl, left⟩ : String.ofList _ = k ∧ _ = v ++ r := by simpa using read
    obtain ⟨same, behind⟩ := takeWhile_alone left
    rw [word?, same, behind]
    split
    · next empty => exact absurd empty nonempty
    · rfl

theorem keyName?_shorter {k : List Char × String} (read : keyName? cs = some (k, r)) :
    r.length < cs.length := by
  have reads := keyName?_alike (.refl cs)
  rw [read] at reads
  cases reads with
  | read _ _ shorter => exact shorter

theorem keyName?_alone {k : List Char × String} (read : keyName? (cs ++ r) = some (k, v ++ r)) :
    keyName? cs = some (k, v) := by
  cases cs with
  | nil =>
    have shorter := keyName?_shorter read
    simp only [List.nil_append, List.length_append] at shorter
    omega
  | cons c s =>
    by_cases bracket : c = '['
    · subst bracket
      simp only [List.cons_append, keyName?] at read
      split at read
      · next d rest closing =>
        obtain ⟨rfl, rfl⟩ : _ = k ∧ rest = v ++ r := by simpa using read
        obtain ⟨same, behind⟩ := takeWhile_alone (v := d :: v) closing
        simp only [keyName?, behind, same]
        rfl
      · cases read
    · have ne (t : List Char) : ∀ r, c :: t ≠ ['['] ++ r :=
        fun _ same => bracket (List.cons.inj same).1
      rw [List.cons_append, keyName?_of_ne (ne _), ← List.cons_append] at read
      obtain ⟨⟨name, rest⟩, word, same⟩ := Option.map_eq_some_iff.mp read
      obtain ⟨rfl, rfl⟩ : _ = k ∧ rest = v ++ r := by simpa using same
      rw [keyName?_of_ne (ne _), word?_alone word]
      rfl

/-- Where a longer text has no key in front, a shorter one has none. -/
theorem keyName?_eq_none (none : keyName? (cs ++ r) = none) : keyName? cs = .none := by
  cases cs with
  | nil => rfl
  | cons c s =>
    by_cases bracket : c = '['
    · subst bracket
      simp only [List.cons_append, keyName?] at none ⊢
      split at none
      · cases none
      · next open' =>
        rw [List.dropWhile_append] at open'
        split at open'
        · next empty => rw [List.isEmpty_iff.mp empty]
        · next some => exact absurd (List.append_eq_nil_iff.mp open').1 (by simpa using some)
    · have ne (t : List Char) : ∀ r, c :: t ≠ ['['] ++ r :=
        fun _ same => bracket (List.cons.inj same).1
      rw [List.cons_append, keyName?_of_ne (ne _), Option.map_eq_none_iff] at none
      rw [keyName?_of_ne (ne _), Option.map_eq_none_iff]
      rw [word?] at none ⊢
      split at none
      · next empty =>
        have symbol : isSymbol c = false := by
          cases symbol : isSymbol c with
          | false => rfl
          | true => rw [List.takeWhile_cons_of_pos symbol] at empty; cases empty
        rw [List.takeWhile_cons_of_neg (by simp [symbol])]
      · cases none

/-! ### Keys -/

/-- One part of a path behind another. -/
def Steps.append (a b : Steps) : Steps := ⟨a.written ++ b.written, a.steps ++ b.steps⟩

/-- The keys do not depend on what is in front of them. -/
theorem moreKeys_append (fuel : List Char) (acc : Steps) (cs : List Char) :
    moreKeys fuel acc cs = (acc.append (moreKeys fuel {} cs).1, (moreKeys fuel {} cs).2) := by
  induction fuel generalizing acc cs with
  | nil => simp [moreKeys, Steps.append]
  | cons d fuel ih =>
    cases cs with
    | nil => simp [moreKeys, Steps.append]
    | cons c r =>
      simp only [moreKeys]
      split
      · cases keyName? r with
        | none => simp [Steps.append]
        | some found =>
          obtain ⟨⟨written, name⟩, rest⟩ := found
          dsimp only
          rw [ih, ih ⟨[] ++ c :: written, [] ++ keySteps name⟩]
          simp [Steps.append]
      · simp [Steps.append]

theorem moreKeys_suffix {fuel : List Char} (acc : Steps) (enough : cs.length ≤ fuel.length) :
    (moreKeys fuel acc cs).2 <:+ cs := by
  obtain ⟨-, w, -, spelled, -, -⟩ := moreKeys_leaves acc acc (.refl cs) enough enough
  exact ⟨w, spelled.symm⟩

/-- Where nothing is taken off, there is no key. -/
theorem moreKeys_eq_self {fuel : List Char} (acc : Steps) (enough : cs.length ≤ fuel.length)
    (all : cs.length ≤ (moreKeys fuel acc cs).2.length) : moreKeys fuel acc cs = (acc, cs) := by
  cases fuel with
  | nil => rfl
  | cons d fuel =>
    cases cs with
    | nil => rfl
    | cons c r =>
      simp only [moreKeys] at all ⊢
      split at all
      · rw [if_pos ‹_›]
        cases key : keyName? r with
        | none => rfl
        | some found =>
          obtain ⟨⟨written, name⟩, rest⟩ := found
          rw [key] at all
          have less := keyName?_shorter key
          simp only [List.length_cons] at enough all
          have fewer := (moreKeys_suffix ⟨acc.written ++ c :: written, acc.steps ++ keySteps name⟩
            (by omega : rest.length ≤ fuel.length)).length_le
          omega
      · exact if_neg ‹_›

theorem moreKeys_alone {fuel fuel' : List Char} (acc : Steps)
    (enough : (cs ++ r).length ≤ fuel.length) (enough' : cs.length ≤ fuel'.length) {k : Steps}
    (read : moreKeys fuel acc (cs ++ r) = (k, v ++ r)) : moreKeys fuel' acc cs = (k, v) := by
  induction fuel generalizing fuel' acc cs with
  | nil =>
    obtain ⟨rfl, rfl⟩ : cs = [] ∧ r = [] := by simpa using enough
    rw [List.append_nil, List.append_nil, moreKeys_nil] at read
    rw [moreKeys_nil, read]
  | cons d fuel ih =>
    have stays (same : (acc, cs ++ r) = (k, v ++ r)) : (acc, cs) = (k, v) := by
      obtain ⟨rfl, left⟩ := Prod.mk.inj same
      rw [List.append_cancel_right left]
    cases cs with
    | nil =>
      rw [List.nil_append] at read enough
      rw [moreKeys_nil]
      exact stays ((moreKeys_eq_self acc enough (by simp [read])).symm.trans read)
    | cons c s =>
      cases fuel' with
      | nil => cases enough'
      | cons d' fuel' =>
        simp only [List.cons_append, List.length_cons, Nat.add_le_add_iff_right] at enough enough'
        simp only [List.cons_append, moreKeys] at read ⊢
        split at read
        · cases key : keyName? (s ++ r) with
          | none =>
            rw [key] at read
            rw [if_pos ‹_›, keyName?_eq_none key]
            exact stays read
          | some found =>
            obtain ⟨⟨written, name⟩, rest⟩ := found
            rw [key] at read
            dsimp only at read
            have less := keyName?_shorter key
            have behind := moreKeys_suffix
              ⟨acc.written ++ c :: written, acc.steps ++ keySteps name⟩
              (by omega : rest.length ≤ fuel.length)
            rw [read] at behind
            obtain ⟨t, rfl⟩ := (List.suffix_append v r).trans behind
            have fewer := keyName?_shorter (keyName?_alone key)
            rw [if_pos ‹_›, keyName?_alone key]
            exact ih _ (by omega) (by omega) read
        · rw [if_neg ‹_›]
          exact stays read

/-! ### Marks in front of the keys -/

/-- A reader of marks gives back what it takes off, and reads the same off that alone. -/
structure Marking (f : List Char → Steps × List Char) : Prop where
  spells : ∀ cs, (f cs).1.written ++ (f cs).2 = cs
  alone : ∀ ⦃cs r v m⦄, f (cs ++ r) = (m, v ++ r) → f cs = (m, v)

namespace Marking

variable {f g : List Char → Steps × List Char}

/-- What a mark decides by itself does not depend on what follows. -/
theorem of_decides (spells : ∀ cs, (f cs).1.written ++ (f cs).2 = cs)
    (decides : ∀ cs, f cs = ({}, cs) ∨ ∀ s, f ((f cs).1.written ++ s) = ((f cs).1, s)) :
    Marking f where
  spells := spells
  alone cs r v m read := by
    rcases decides (cs ++ r) with unmarked | decided
    · obtain ⟨rfl, left⟩ := Prod.mk.inj (unmarked.symm.trans read)
      rw [← List.append_cancel_right left]
      rcases decides cs with here | marked
      · exact here
      · have whole := marked ((f cs).2 ++ r)
        rw [← List.append_assoc, spells, unmarked] at whole
        obtain ⟨same, rest⟩ := Prod.mk.inj whole
        exact Prod.ext same.symm (List.append_cancel_right rest).symm
    · have spelled := spells (cs ++ r)
      rw [read, ← List.append_assoc] at spelled
      rw [read] at decided
      rw [← List.append_cancel_right spelled]
      exact decided v

/-- One mark behind another. -/
def andThen (f g : List Char → Steps × List Char) (cs : List Char) : Steps × List Char :=
  ((f cs).1.append (g (f cs).2).1, (g (f cs).2).2)

theorem both (first : Marking f) (second : Marking g) : Marking (andThen f g) where
  spells cs := by
    rw [andThen, Steps.append, List.append_assoc, second.spells, first.spells]
  alone cs r v m read := by
    obtain ⟨rfl, left⟩ := Prod.mk.inj read
    have between := second.spells (f (cs ++ r)).2
    rw [left, ← List.append_assoc] at between
    have front := first.alone (Prod.ext rfl between.symm)
    have behind := second.alone (v := v) (Prod.ext rfl (between.symm ▸ left))
    rw [andThen, front, behind, between]

end Marking

/-- The mark of the current context leads nowhere else. -/
def currentStep (cs : List Char) : Steps × List Char :=
  (⟨(currentMark cs).1, []⟩, (currentMark cs).2)

theorem marking_currentStep : Marking currentStep := by
  refine .of_decides currentMark_spells fun cs => ?_
  rw [currentStep, currentMark.eq_def]
  split
  · split
    · next separator => exact .inr fun s => by simp [currentStep, currentMark, separator]
    · exact .inl rfl
  · exact .inr fun s => rfl
  · exact .inl rfl

theorem marking_rootStep : Marking rootStep := by
  refine .of_decides rootStep_spells fun cs => ?_
  rw [rootStep.eq_def]
  split
  · split
    · next separator => exact .inr fun s => by simp [rootStep, separator]
    · exact .inl rfl
  · exact .inl rfl

theorem marking_loopStep : Marking loopStep := by
  refine .of_decides loopStep_spells fun cs => ?_
  rw [loopStep.eq_def]
  split
  · exact .inr fun s => rfl
  · exact .inl rfl

theorem upSteps_cons {c : Char} (separator : isSeparator c = true) (s : List Char) :
    upSteps ('.' :: '.' :: c :: s) = ((⟨['.', '.', c], [.up]⟩ : Steps).append (upSteps s).1,
      (upSteps s).2) := by
  simp [upSteps, separator, Steps.append]

theorem upSteps_alone {cs r v : List Char} {m : Steps} (read : upSteps (cs ++ r) = (m, v ++ r)) :
    upSteps cs = (m, v) := by
  by_cases starts : ∃ c s, isSeparator c = true ∧ cs = '.' :: '.' :: c :: s
  · obtain ⟨c, s, separator, rfl⟩ := starts
    simp only [List.cons_append, upSteps_cons separator] at read
    obtain ⟨rfl, left⟩ := Prod.mk.inj read
    rw [upSteps_cons separator, upSteps_alone (Prod.ext rfl left)]
  · have none : upSteps (cs ++ r) = ({}, cs ++ r) := by
      refine upSteps_of_ne fun c s separator same => ?_
      have spelled := upSteps_spells (cs ++ r)
      rw [read, ← List.append_assoc] at spelled
      rw [same, List.cons_append, List.cons_append, List.nil_append, upSteps_cons separator] at read
      obtain ⟨rfl, -⟩ := Prod.mk.inj read
      exact starts ⟨c, _, separator, (List.append_cancel_right spelled).symm⟩
    obtain ⟨rfl, left⟩ := Prod.mk.inj (none.symm.trans read)
    rw [← List.append_cancel_right left]
    exact upSteps_of_ne fun c s separator same => starts ⟨c, s, separator, same⟩
termination_by cs.length

theorem marking_upSteps : Marking upSteps := ⟨upSteps_spells, fun _ _ _ _ => upSteps_alone⟩

/-- What stands in front of the keys of a path. -/
def marks : List Char → Steps × List Char :=
  Marking.andThen currentStep (Marking.andThen rootStep (Marking.andThen loopStep upSteps))

theorem marking_marks : Marking marks :=
  marking_currentStep.both (marking_rootStep.both (marking_loopStep.both marking_upSteps))

/-! ### Paths alone -/

/-- A path: the keys behind the marks. -/
theorem path?_eq (cs : List Char) : path? cs = (keyName? (marks cs).2).map fun (k, r) =>
    let all := ((marks cs).1.append ⟨k.1, keySteps k.2⟩).append (moreKeys r {} r).1
    (⟨String.ofList all.written, all.steps⟩, (moreKeys r {} r).2) := by
  rw [path?]
  simp only [marks, Marking.andThen, currentStep]
  cases keyName? (upSteps (loopStep (rootStep (currentMark cs).2).2).2).2 with
  | none => rfl
  | some found =>
    obtain ⟨⟨written, name⟩, r⟩ := found
    simp [moreKeys_append r ⟨written, keySteps name⟩ r, Steps.append]

theorem path?_of_marks {m keys : Steps} {k : List Char × String} (marked : marks cs = (m, r))
    (key : keyName? r = some (k, s)) (more : moreKeys s {} s = (keys, v)) :
    path? cs = some (⟨String.ofList (m.written ++ k.1 ++ keys.written),
      m.steps ++ keySteps k.2 ++ keys.steps⟩, v) := by
  rw [path?_eq, marked, key]
  simp only [Option.map_some, more, Steps.append]

theorem path?_alone {p : Path} (read : path? (cs ++ r) = some (p, v ++ r)) :
    path? cs = some (p, v) := by
  rw [path?_eq] at read
  obtain ⟨⟨k, t⟩, key, same⟩ := Option.map_eq_some_iff.mp read
  obtain ⟨rfl, left⟩ := Prod.mk.inj same
  have behind := moreKeys_suffix {} (Nat.le_refl t.length)
  rw [left] at behind
  obtain ⟨u, rfl⟩ := (List.suffix_append v r).trans behind
  have between := keyName?_spells key
  rw [← List.append_assoc] at between
  have marked := marking_marks.alone (Prod.ext rfl between)
  rw [between] at key
  have keys : moreKeys u {} u = (_, v) :=
    moreKeys_alone {} (Nat.le_refl _) (Nat.le_refl _) (Prod.ext rfl left)
  rw [path?_eq, marked, keyName?_alone key, Option.map_some]
  simp only [keys]

/-- A path is told by its text. -/
theorem path?_text {p : Path} (read : path? cs = some (p, r)) :
    path? p.text.toList = some (p, []) := by
  have spelled := path?_spells read
  rw [spelled] at read
  exact path?_alone (v := []) read

end Promptry.Template
