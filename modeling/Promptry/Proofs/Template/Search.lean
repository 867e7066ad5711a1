import Promptry.Proofs.Template.Splice

/-!
The search for references step by step. In a tag it goes over quoted literals and, from at sign to
at sign, over the rest; in a template it goes from tag to tag. What ends in closing braces is
searched apart from what follows. Main statements: `scanTag_foreign`, `search_tag`, `search_quiet`
and `search_closing`.
-/

namespace Promptry.Template.DataVariables

variable {cs r rest w : List Char} {c d : Char}

/-! ### Steps -/

/-- A function with fuel that takes a text apart from its head on, and writes something for each
part; what was written before comes last first. -/
structure Stepwise (f : List Char → List Char → List Char → List Char)
    (step : Char → List Char → List Char × List Char) : Prop where
  starved : ∀ acc cs, f [] acc cs = acc.reverse
  done : ∀ fuel acc, f fuel acc [] = acc.reverse
  next : ∀ d fuel acc c r,
    f (d :: fuel) acc (c :: r) = f fuel ((step c r).1.reverse ++ acc) (step c r).2
  shorter : ∀ c r, (step c r).2.length ≤ r.length

namespace Stepwise

variable {f : List Char → List Char → List Char → List Char}
  {step : Char → List Char → List Char × List Char} (steps : Stepwise f step)
include steps

theorem behind (fuel acc cs : List Char) : f fuel acc cs = acc.reverse ++ f fuel [] cs := by
  induction fuel generalizing acc cs with
  | nil => rw [steps.starved, steps.starved]; simp
  | cons d fuel ih =>
    cases cs with
    | nil => rw [steps.done, steps.done]; simp
    | cons c r =>
      rw [steps.next, steps.next, ih, ih ((step c r).1.reverse ++ [])]
      simp

theorem enough {fuel fuel' : List Char} (room : cs.length ≤ fuel.length)
    (room' : cs.length ≤ fuel'.length) : f fuel [] cs = f fuel' [] cs := by
  induction fuel generalizing fuel' cs with
  | nil =>
    obtain rfl := List.eq_nil_of_length_eq_zero (Nat.le_zero.mp room)
    rw [steps.done, steps.done]
  | cons d fuel ih =>
    cases cs with
    | nil => rw [steps.done, steps.done]
    | cons c r =>
      cases fuel' with
      | nil => cases room'
      | cons d' fuel' =>
        have fewer := steps.shorter c r
        simp only [List.length_cons, Nat.add_le_add_iff_right] at room room'
        rw [steps.next, steps.next, steps.behind, steps.behind fuel',
          ih (Nat.le_trans fewer room) (Nat.le_trans fewer room')]

theorem cons (c : Char) (r : List Char) :
    f (c :: r) [] (c :: r) = (step c r).1 ++ f (step c r).2 [] (step c r).2 := by
  rw [steps.next, steps.behind, steps.enough (steps.shorter c r) (Nat.le_refl _), List.append_nil,
    List.reverse_reverse]

end Stepwise

/-! ### Inside a tag -/

/-- A tag with its references redirected. -/
def scanTag (cs : List Char) : List Char := redirectTag cs [] cs

/-- What is written for the head of a tag, and what is left. -/
def tagStep (c : Char) (r : List Char) : List Char × List Char :=
  match literal? (c :: r) with
  | some found => found
  | none =>
    match c, r with
    | '@', d :: _ =>
      if isNameStart d then
        ('@' :: redirect (r.takeWhile isNameChar) ++ r.takeWhile isNameChar,
          r.dropWhile isNameChar)
      else (['@'], r)
    | _, _ => ([c], r)

theorem literal?_of_ne (double : c ≠ '"') (single : c ≠ '\'') (r : List Char) :
    literal? (c :: r) = none := by
  rw [literal?.eq_def]
  split
  · next same => exact absurd (List.cons.inj same).1 double
  · next same => exact absurd (List.cons.inj same).1 single
  · rfl

theorem tagStep_at (d : Char) (r : List Char) :
    tagStep '@' (d :: r) = if isNameStart d then
        ('@' :: redirect ((d :: r).takeWhile isNameChar) ++ (d :: r).takeWhile isNameChar,
          (d :: r).dropWhile isNameChar)
      else (['@'], d :: r) := by
  rw [tagStep.eq_def, literal?_of_ne (by decide) (by decide)]
  rfl

theorem tagStep_of_ne (noLiteral : literal? (c :: r) = none) (ne : c ≠ '@') :
    tagStep c r = ([c], r) := by
  rw [tagStep.eq_def, noLiteral]
  dsimp only
  split
  · exact absurd rfl ne
  · rfl

theorem redirectTag_stepwise : Stepwise redirectTag tagStep where
  starved _ _ := rfl
  done fuel acc := by cases fuel <;> rfl
  next d fuel acc c r := by
    rw [redirectTag.eq_def]
    cases found : literal? (c :: r) with
    | some p =>
      rw [tagStep.eq_def]
      simp only [found]
    | none =>
      by_cases mark : c = '@'
      · subst mark
        cases r with
        | nil => rfl
        | cons e r =>
          rw [tagStep_at]
          simp only
          split <;> simp
      · rw [tagStep_of_ne found mark]
        dsimp only
        split
        · exact absurd rfl mark
        · rfl
  shorter c r := by
    rw [tagStep.eq_def]
    cases found : literal? (c :: r) with
    | some p =>
      obtain ⟨nonempty, spelled⟩ := literal?_spells found
      have whole := congrArg List.length spelled
      have some := List.length_pos_iff.mpr nonempty
      rw [List.length_cons, List.length_append] at whole
      show p.2.length ≤ r.length
      omega
    | none =>
      dsimp only
      split
      · split
        · exact (List.dropWhile_suffix _).length_le
        · exact Nat.le_refl _
      · exact Nat.le_refl _

/-- Redirecting in a tag, step by step. -/
theorem scanTag_cons (c : Char) (r : List Char) :
    scanTag (c :: r) = (tagStep c r).1 ++ scanTag (tagStep c r).2 := redirectTag_stepwise.cons c r

/-- Literals stay as they are. -/
theorem scanTag_literal (found : literal? (w ++ cs) = some (w, cs)) :
    scanTag (w ++ cs) = w ++ scanTag cs := by
  obtain ⟨nonempty, -⟩ := literal?_spells found
  obtain ⟨c, v, rfl⟩ := List.exists_cons_of_ne_nil nonempty
  rw [List.cons_append] at found ⊢
  rw [scanTag_cons, tagStep.eq_def, found]

/-- What follows a literal does not matter, and it ends with a quote. -/
theorem literal?_append (found : literal? (w ++ cs) = some (w, cs)) :
    (∀ cs', literal? (w ++ cs') = some (w, cs')) ∧ '\x7d' ∉ w.getLast? := by
  have is := (literal?_eq_some_iff.mp found).1
  refine ⟨literal?_of_isLiteral is, ?_⟩
  obtain ⟨q, inner, quote, -, rfl⟩ := is
  rw [← List.cons_append, List.getLast?_concat]
  rcases quote with rfl | rfl <;> decide

theorem scanTag_of_ne (double : c ≠ '"') (single : c ≠ '\'') (mark : c ≠ '@') (cs : List Char) :
    scanTag (c :: cs) = c :: scanTag cs := by
  rw [scanTag_cons, tagStep_of_ne (literal?_of_ne double single cs) mark]
  rfl

/-- The characters of names stay as they are. -/
theorem scanTag_append_of_isNameChar (name : w.all isNameChar = true) (cs : List Char) :
    scanTag (w ++ cs) = w ++ scanTag cs := by
  induction w with
  | nil => rfl
  | cons c w ih =>
    obtain ⟨here, rest⟩ := Bool.and_eq_true_iff.mp (List.all_cons.symm.trans name)
    have ne {d : Char} (other : isNameChar d = false) : c ≠ d := by
      rintro rfl
      rw [other] at here
      cases here
    rw [List.cons_append, scanTag_of_ne (ne (by decide)) (ne (by decide)) (ne (by decide)),
      ih rest, List.cons_append]

theorem scanTag_name (start : isNameStart d = true) (r : List Char) :
    scanTag ('@' :: d :: r) =
      '@' :: (redirect ((d :: r).takeWhile isNameChar) ++ scanTag (d :: r)) := by
  have split := List.takeWhile_append_dropWhile (p := isNameChar) (l := d :: r)
  have whole := scanTag_append_of_isNameChar (w := (d :: r).takeWhile isNameChar) List.all_takeWhile
    ((d :: r).dropWhile isNameChar)
  rw [split] at whole
  rw [scanTag_cons, tagStep_at, if_pos start, whole]
  simp

/-- A reference that is not one of the language's own is redirected. -/
theorem scanTag_foreign (foreign : Foreign cs) :
    scanTag ('@' :: cs) = '@' :: (redirection ++ scanTag cs) := by
  obtain ⟨d, r, rfl, start⟩ := foreign.starts
  rw [scanTag_name start, redirect, foreign.other]
  rfl

/-- Any other at sign stays as it is. -/
theorem scanTag_of_not_foreign (other : ¬ Foreign cs) :
    scanTag ('@' :: cs) = '@' :: scanTag cs := by
  cases cs with
  | nil => rfl
  | cons d r =>
    by_cases start : isNameStart d = true
    · have own : ownVariables.contains (String.ofList ((d :: r).takeWhile isNameChar)) = true := by
        refine Decidable.byContradiction fun foreign => ?_
        exact other ⟨⟨d, r, rfl, start⟩, by simpa using foreign⟩
      rw [scanTag_name start, redirect, if_pos own, List.nil_append]
    · rw [scanTag_cons, tagStep_at, if_neg start]
      rfl

theorem scanTag_redirected {rest' : List Char} (closed : EndsClosed cs)
    (tail : Redirected rest rest') : Redirected (cs ++ rest) (scanTag cs ++ rest') := by
  obtain ⟨out, same, redirected⟩ := redirectTag_redirected cs [] (Nat.le_refl _) closed
  rw [scanTag, same]
  exact redirected rest rest' tail

theorem scanTag_of_not_mem (closed : EndsClosed cs) (plain : '@' ∉ cs) : scanTag cs = cs := by
  have redirected := scanTag_redirected closed .nil
  rw [List.append_nil, List.append_nil] at redirected
  exact redirected.eq_of_not_mem plain

/-! ### From tag to tag -/

/-- A template with its references redirected. -/
def search (cs : List Char) : List Char := redirectFrom cs [] cs

theorem toList_redirectAll (t : String) : (redirectAll t).toList = search t.toList := by
  rw [redirectAll, String.toList_ofList, search]

/-- What is written for the head of a template, and what is left. -/
def searchStep (c : Char) (r : List Char) : List Char × List Char :=
  match tag? (c :: r) with
  | some (tag, rest) => (scanTag tag, rest)
  | none => ([c], r)

theorem redirectFrom_stepwise : Stepwise redirectFrom searchStep where
  starved _ _ := rfl
  done fuel acc := by cases fuel <;> rfl
  next d fuel acc c r := by
    rw [redirectFrom, searchStep]
    cases tag? (c :: r) <;> rfl
  shorter c r := by
    rw [searchStep]
    cases found : tag? (c :: r) with
    | none => exact Nat.le_refl _
    | some p =>
      obtain ⟨tag, rest⟩ := p
      obtain ⟨spelled, nonempty, -⟩ := tag?_eq_some found
      have whole := congrArg List.length spelled
      have some := List.length_pos_iff.mpr nonempty
      rw [List.length_cons, List.length_append] at whole
      show rest.length ≤ r.length
      omega

theorem search_cons (c : Char) (r : List Char) :
    search (c :: r) = (searchStep c r).1 ++ search (searchStep c r).2 :=
  redirectFrom_stepwise.cons c r

/-- A tag is redirected, and what is behind it. -/
theorem search_tag {tag : List Char} (found : tag? cs = some (tag, rest)) :
    search cs = scanTag tag ++ search rest := by
  cases cs with
  | nil => cases found
  | cons c r => rw [search_cons, searchStep, found]

/-- What is in no tag stays as it is. -/
theorem search_of_no_tag (none : tag? (c :: r) = none) : search (c :: r) = c :: search r := by
  rw [search_cons, searchStep, none]
  rfl

theorem redirected_search (cs : List Char) : Redirected cs (search cs) := by
  obtain ⟨out, same, redirected⟩ := redirectFrom_redirected cs [] (Nat.le_refl _)
  rwa [search, same]

/-! ### Stretches of a template -/

theorem tag?_of_not_opensTag (none : opensTag cs = false) : tag? cs = .none := by
  rw [tag?, none]
  rfl

/-- Without opening braces there are no tags. -/
theorem search_append_of_not_mem (none : '\x7b' ∉ w) (rest : List Char) :
    search (w ++ rest) = w ++ search rest := by
  induction w with
  | nil => rfl
  | cons c w ih =>
    obtain ⟨ne, none⟩ := List.ne_and_not_mem_of_not_mem_cons none
    have text : opensTag (c :: (w ++ rest)) = false := by
      rw [← Bool.not_eq_true, opensTag_iff]
      rintro ⟨s, same⟩
      exact ne.symm (List.cons.inj same).1
    rw [List.cons_append, search_of_no_tag (tag?_of_not_opensTag text), ih none, List.cons_append]

/-- Behind two opening braces and a stretch without closing ones, a tag ends or there is none. -/
theorem tag?_inner {inner : List Char} (free : '\x7d' ∉ inner) (r : List Char) :
    tag? ('\x7b' :: '\x7b' :: (inner ++ '\x7d' :: r)) =
      match r with
      | '\x7d' :: rest => some ('\x7b' :: '\x7b' :: inner ++ ['\x7d', '\x7d'], rest)
      | _ => none := by
  have goes : ∀ c ∈ inner, (c != '\x7d') = true := fun c mem => by
    simpa using fun same : c = '\x7d' => free (same ▸ mem)
  rw [tag?, if_pos (show opensTag _ = true from rfl)]
  simp only [List.drop_succ_cons, List.drop_zero, List.dropWhile_append_of_pos goes,
    List.takeWhile_append_of_pos goes]
  rw [List.dropWhile_cons_of_neg (by decide), List.takeWhile_cons_of_neg (by decide)]
  cases r with
  | nil => rfl
  | cons d r =>
    by_cases closes : d = '\x7d'
    · subst closes
      simp
    · simp [closes]

theorem tag?_inner_of_ne {inner : List Char} (free : '\x7d' ∉ inner) (ne : ∀ s, r ≠ '\x7d' :: s) :
    tag? ('\x7b' :: '\x7b' :: (inner ++ '\x7d' :: r)) = none := by
  rw [tag?_inner free]
  split
  · next s => exact absurd rfl (ne s)
  · rfl

/-- Wherever two opening braces start in a stretch, with `rest` behind it, a closing brace comes
before the next at sign, and in the stretch. -/
def isQuiet (rest : List Char) : List Char → Bool
  | [] => true
  | c :: w =>
      (!opensTag (c :: (w ++ rest)) ||
        (w.drop 1).find? (fun c => c == '\x7d' || c == '@') == some '\x7d') && isQuiet rest w

theorem isQuiet_of_append {v : List Char} (quiet : isQuiet rest (v ++ w) = true) :
    isQuiet rest w = true := by
  induction v with
  | nil => exact quiet
  | cons c v ih => exact ih (Bool.and_eq_true_iff.mp quiet).2

theorem endsClosed_braces (w : List Char) : EndsClosed (w ++ ['\x7d', '\x7d']) := by
  intro c last
  rw [List.append_cons, List.getLast?_concat] at last
  exact (Option.some.inj last).symm

/-- A quiet stretch stays as it is. -/
theorem search_quiet (open' : ∀ r, rest ≠ '\x7d' :: r) {w : List Char}
    (quiet : isQuiet rest w = true) : search (w ++ rest) = w ++ search rest := by
  match w with
  | [] => rfl
  | c :: w =>
    obtain ⟨here, quiet'⟩ := Bool.and_eq_true_iff.mp quiet
    cases opens : opensTag (c :: (w ++ rest)) with
    | false =>
      rw [List.cons_append, search_of_no_tag (tag?_of_not_opensTag opens),
        search_quiet open' quiet', List.cons_append]
    | true =>
      rw [opens, Bool.not_true, Bool.false_or, beq_iff_eq, List.find?_eq_some_iff_append] at here
      obtain ⟨-, inner, behind, spelled, free⟩ := here
      obtain ⟨r, same⟩ := (opensTag_iff _).mp opens
      cases w with
      | nil => simp at spelled
      | cons d w =>
        obtain ⟨rfl, rfl, -⟩ : c = '\x7b' ∧ d = '\x7b' ∧ w ++ rest = r := by simpa using same
        obtain rfl : w = inner ++ '\x7d' :: behind := spelled
        have noBrace : '\x7d' ∉ inner := fun mem => absurd (free _ mem) (by decide)
        have noAt : '@' ∉ inner := fun mem => absurd (free _ mem) (by decide)
        have whole : '\x7b' :: '\x7b' :: (inner ++ '\x7d' :: behind) ++ rest =
            '\x7b' :: '\x7b' :: (inner ++ '\x7d' :: (behind ++ rest)) := by simp
        by_cases closes : ∃ s, behind = '\x7d' :: s
        · obtain ⟨s, rfl⟩ := closes
          have closed : EndsClosed ('\x7b' :: '\x7b' :: inner ++ ['\x7d', '\x7d']) :=
            endsClosed_braces _
          have quiet' : isQuiet rest s = true :=
            isQuiet_of_append (v := '\x7b' :: '\x7b' :: inner ++ ['\x7d', '\x7d'])
              (by simpa using quiet)
          have tail : search (s ++ rest) = s ++ search rest := search_quiet open' quiet'
          rw [whole, search_tag (tag?_inner noBrace ('\x7d' :: s ++ rest)),
            scanTag_of_not_mem closed (by simp [noAt]), List.append_eq, tail]
          simp
        · have ne : ∀ s, behind ++ rest ≠ '\x7d' :: s := by
            cases behind with
            | nil => exact open'
            | cons e s => exact fun _ same => closes ⟨s, by rw [(List.cons.inj same).1]⟩
          have none := tag?_inner_of_ne noBrace ne
          rw [whole, search_of_no_tag none]
          have tail := search_quiet open' quiet'
          simp at tail ⊢
          exact tail
termination_by w.length

/-- The end of a tag, or what is left of it. -/
def Closing (w : List Char) : Prop := ∃ v, ['\x7d', '\x7d'] <:+ v ++ w

theorem Closing.of_append {v : List Char} (closing : Closing (v ++ w)) : Closing w := by
  obtain ⟨u, ends⟩ := closing
  exact ⟨u ++ v, by rwa [List.append_assoc]⟩

theorem Closing.eq_brace (closing : Closing [c]) : c = '\x7d' := by
  obtain ⟨v, u, same⟩ := closing
  simpa using (congrArg List.getLast? same).symm

/-- Where the end of a tag starts with two opening braces, a closing one follows in it, and not as
its last character. -/
theorem Closing.inner (closing : Closing ('\x7b' :: '\x7b' :: w)) :
    ∃ inner d behind, w = inner ++ '\x7d' :: d :: behind ∧ '\x7d' ∉ inner := by
  obtain ⟨v, ends⟩ := closing
  rcases List.suffix_or_suffix_of_suffix ends (List.suffix_append v _) with inside | outside
  · obtain ⟨u, same⟩ := inside
    match u with
    | [] => simp at same
    | [_] => simp at same
    | _ :: _ :: u =>
      obtain ⟨-, -, rfl⟩ : _ ∧ _ ∧ u ++ ['\x7d', '\x7d'] = w := by simpa using same
      obtain ⟨inner, behind, spelled, free⟩ :=
        List.eq_append_cons_of_mem (show '\x7d' ∈ u ++ ['\x7d', '\x7d'] by simp)
      cases behind with
      | cons d behind => exact ⟨inner, d, behind, spelled, free⟩
      | nil =>
        have shorter : u ++ ['\x7d'] = inner := by
          have last : (u ++ ['\x7d']) ++ ['\x7d'] = inner ++ ['\x7d'] := by simpa using spelled
          exact List.append_cancel_right last
        exact absurd (shorter ▸ by simp) free
  · exact absurd (outside.subset List.mem_cons_self) (by decide)

/-- What ends as a tag does is searched apart from what follows. -/
theorem search_closing (rest : List Char) {w : List Char} (closing : Closing w) :
    ∃ out, search (w ++ rest) = out ++ search rest ∧
      ∀ tail tail', Redirected tail tail' → Redirected (w ++ tail) (out ++ tail') := by
  match w with
  | [] => exact ⟨[], rfl, fun _ _ tail => tail⟩
  | c :: w =>
    have skip (none : tag? (c :: (w ++ rest)) = none) :
        ∃ out, search (c :: w ++ rest) = out ++ search rest ∧
          ∀ tail tail', Redirected tail tail' → Redirected (c :: w ++ tail) (out ++ tail') := by
      obtain ⟨out, same, redirected⟩ :=
        search_closing rest (w := w) (Closing.of_append (v := [c]) closing)
      exact ⟨c :: out, by rw [List.cons_append, search_of_no_tag none, same, List.cons_append],
        fun tail tail' behind => .cons c (redirected tail tail' behind)⟩
    cases opens : opensTag (c :: w) with
    | false =>
      refine skip (tag?_of_not_opensTag ?_)
      cases w with
      | nil =>
        rw [closing.eq_brace]
        rfl
      | cons => simpa [← Bool.not_eq_true, opensTag_iff] using opens
    | true =>
      obtain ⟨u, same⟩ := (opensTag_iff _).mp opens
      obtain ⟨rfl, rfl⟩ := List.cons.inj same
      obtain ⟨inner, d, behind, rfl, free⟩ := closing.inner
      have whole : '\x7b' :: '\x7b' :: (inner ++ '\x7d' :: d :: behind) ++ rest =
          '\x7b' :: '\x7b' :: (inner ++ '\x7d' :: d :: (behind ++ rest)) := by simp
      by_cases closes : d = '\x7d'
      · subst closes
        have tag : '\x7b' :: '\x7b' :: (inner ++ '\x7d' :: '\x7d' :: behind) =
            ('\x7b' :: '\x7b' :: inner ++ ['\x7d', '\x7d']) ++ behind := by simp
        obtain ⟨out, same, redirected⟩ :=
          search_closing rest (w := behind) (Closing.of_append (tag ▸ closing))
        refine ⟨scanTag ('\x7b' :: '\x7b' :: inner ++ ['\x7d', '\x7d']) ++ out, ?_, ?_⟩
        · rw [whole, search_tag (tag?_inner free _), same, List.append_assoc]
        · intro tail tail' below
          have closed := endsClosed_braces ('\x7b' :: '\x7b' :: inner)
          have both := scanTag_redirected closed (redirected tail tail' below)
          rwa [← List.append_assoc, ← List.append_assoc, ← tag] at both
      · refine skip ?_
        rw [← List.cons_append, whole]
        exact tag?_inner_of_ne free fun s same => closes (List.cons.inj same).1
termination_by w.length

/-- A tag without closing braces inside, with any number of them behind. -/
theorem search_inner {inner closes : List Char} (free : '\x7d' ∉ inner)
    (braces : ∀ c ∈ closes, c = '\x7d') (rest : List Char) :
    search ('\x7b' :: '\x7b' :: (inner ++ '\x7d' :: '\x7d' :: (closes ++ rest))) =
      scanTag ('\x7b' :: '\x7b' :: inner ++ ['\x7d', '\x7d']) ++ (closes ++ search rest) := by
  have none : '\x7b' ∉ closes := fun mem => absurd (braces _ mem) (by decide)
  rw [search_tag (tag?_inner free _), search_append_of_not_mem none]

end Promptry.Template.DataVariables
