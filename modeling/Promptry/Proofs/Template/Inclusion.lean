import Promptry.Proofs.Template.References

/-!
Tags that include a partial, read as the template language reads them, and whether the search for
references finds them. The names of partials may hold other characters than the search knows, and
blanks may stand where it expects none; apart from that it finds every partial that a tag includes
by name. Main statements: `path?_spells` and `IncludesPlainly.mem_ofTemplate`.
-/

namespace Promptry.Template

variable {cs rest : List Char}

/-! ### Paths as written -/

theorem word?_spells {w : String} (read : word? cs = some (w, rest)) : cs = w.toList ++ rest := by
  rw [word?] at read
  split at read
  · cases read
  · cases read
    rw [String.toList_ofList, List.takeWhile_append_dropWhile]

theorem keyName?_spells {written : List Char} {name : String}
    (read : keyName? cs = some ((written, name), rest)) : cs = written ++ rest := by
  rw [keyName?.eq_def] at read
  split at read
  · next r =>
    simp only at read
    split at read
    · next bracket rest' behind =>
      cases read
      have closing : bracket = ']' := by
        have stops := List.head?_dropWhile_not (· != ']') r
        rw [behind] at stops
        simpa using stops
      have whole := List.takeWhile_append_dropWhile (p := (· != ']')) (l := r)
      rw [behind, closing] at whole
      simp only [List.cons_append, List.append_assoc, List.nil_append, whole]
    · cases read
  · simp only [Option.map_eq_some_iff, Prod.exists, Prod.mk.injEq] at read
    obtain ⟨w, rest', word, ⟨rfl, -⟩, rfl⟩ := read
    exact word?_spells word

theorem moreKeys_spells (fuel : List Char) (acc : Steps) (cs : List Char) :
    (moreKeys fuel acc cs).1.written ++ (moreKeys fuel acc cs).2 = acc.written ++ cs := by
  fun_induction moreKeys fuel acc cs with
  | case1 acc _ fuel c r separator written name rest read ih =>
    rw [ih, keyName?_spells read, List.append_assoc, List.cons_append]
  | case2 => rfl
  | case3 => rfl
  | case4 => rfl

theorem upSteps_spells (cs : List Char) : (upSteps cs).1.written ++ (upSteps cs).2 = cs := by
  fun_induction upSteps cs with
  | case1 c r separator more rest read ih =>
    rw [read] at ih
    simp only [List.cons_append, ih]
  | case2 => rfl
  | case3 => rfl

theorem currentMark_spells (cs : List Char) : (currentMark cs).1 ++ (currentMark cs).2 = cs := by
  rw [currentMark.eq_def]
  split
  · split <;> rfl
  · rfl
  · rfl

theorem rootStep_spells (cs : List Char) : (rootStep cs).1.written ++ (rootStep cs).2 = cs := by
  rw [rootStep.eq_def]
  split
  · split <;> rfl
  · rfl

theorem loopStep_spells (cs : List Char) : (loopStep cs).1.written ++ (loopStep cs).2 = cs := by
  rw [loopStep.eq_def]
  split <;> rfl

/-- A path keeps the text it was written as. -/
theorem path?_spells {p : Path} (read : path? cs = some (p, rest)) :
    cs = p.text.toList ++ rest := by
  simp only [path?] at read
  split at read
  · cases read
  · next written name r key =>
    cases read
    have more := moreKeys_spells r ⟨written, keySteps name⟩ r
    rw [String.toList_ofList]
    conv =>
      lhs
      rw [← currentMark_spells cs, ← rootStep_spells (currentMark cs).2,
        ← loopStep_spells (rootStep (currentMark cs).2).2,
        ← upSteps_spells (loopStep (rootStep (currentMark cs).2).2).2, keyName?_spells key]
    simp only [List.append_assoc, more]

/-! ### Names of partials -/

/-- The name that an expression spells out. -/
def Expr.spelled? : Expr → Option String
  | .word w => some w
  | .path p => some p.text
  | _ => none

/-- The name of the partial that a tag includes, if it is spelled out. -/
def Content.included? : Content → Option String
  | .inclusion name _ => name.spelled?
  | .inclusionOpen name _ => name.spelled?
  | _ => none

theorem path?_paren (r : List Char) : path? ('(' :: r) = none := by
  simp [path?, currentMark, rootStep, loopStep, upSteps, keyName?, word?, isSymbol]

theorem literal?_paren (r : List Char) : literal? ('(' :: r) = none := by
  simp [literal?, measureLiteral, measureString, measureNumber, measureChar, measureKeyword,
    Char.isDigit]

theorem closeCall?_eq_some {e e' : Expr} (read : closeCall? e cs = some (e', rest)) : e' = e := by
  rw [closeCall?] at read
  split at read
  · cases read
    rfl
  · cases read

theorem readCall?_eq_call {e : Expr} (read : readCall? cs = some (e, rest)) :
    ∃ head args, e = .call head args := by
  rw [readCall?.eq_def] at read
  split at read
  · next r =>
    rw [argument?] at read
    simp only [simpleArgument?, path?_paren, literal?_paren, Option.map_none, Option.orElse] at read
    split at read
    · cases read
    · split at read
      · next named =>
        rw [closeCall?_eq_some read]
        split at named
        · cases named
        · split at named
          · cases named
          · cases named
            exact ⟨_, _, rfl⟩
      · obtain ⟨⟨p, r'⟩, -, closed⟩ := Option.bind_eq_some_iff.mp read
        rw [closeCall?_eq_some closed]
        exact ⟨_, _, rfl⟩
  · cases read

/-- A call in parentheses spells no name. -/
theorem spelled?_readCall {e : Expr} (read : readCall? cs = some (e, rest)) :
    e.spelled? = none := by
  obtain ⟨head, args, rfl⟩ := readCall?_eq_call read
  rfl

/-- A reference that spells a name starts with it. -/
theorem spelled_of_reference? {e : Expr} {name : String} (read : reference? cs = some (e, rest))
    (spelled : e.spelled? = some name) : cs = name.toList ++ rest := by
  rw [reference?] at read
  cases call : readCall? cs with
  | some found =>
    rw [call] at read
    cases read
    rw [spelled?_readCall call] at spelled
    cases spelled
  | none =>
    rw [call] at read
    obtain ⟨⟨p, r⟩, path, same⟩ := Option.map_eq_some_iff.mp read
    cases same
    cases spelled
    exact path?_spells path

/-- The target of an inclusion is a name, or else a path or a call. -/
theorem inclusion?_eq_some {target : Expr} {args : Arguments}
    (read : inclusion? cs = some ((target, args), rest)) :
    (∃ w r, partialName? (skipGap cs) = some (w, r) ∧ target = .word w) ∨
      partialName? (skipGap cs) = none ∧ ∃ r, reference? (skipGap cs) = some (target, r) := by
  obtain ⟨⟨target', r⟩, found, same⟩ := Option.bind_eq_some_iff.mp read
  cases same
  cases name : partialName? (skipGap cs) with
  | some found' =>
    rw [name] at found
    cases found
    exact .inl ⟨_, _, rfl, rfl⟩
  | none =>
    rw [name] at found
    exact .inr ⟨rfl, r, found⟩

/-! ### Plain names -/

/-- A name of the characters that the search for references knows. -/
def isPlainName (name : String) : Bool :=
  !name.toList.isEmpty && name.toList.all References.isNameChar

theorem exists_of_isPlainName {name : String} (plain : isPlainName name = true) :
    ∃ c cs, name.toList = c :: cs ∧ References.isNameChar c = true := by
  rw [isPlainName, Bool.and_eq_true] at plain
  cases spelled : name.toList with
  | nil => simp [spelled] at plain
  | cons c cs =>
    rw [spelled, List.all_cons, Bool.and_eq_true] at plain
    exact ⟨c, cs, rfl, plain.2.1⟩

theorem isPartialSymbol_of_isNameChar {c : Char} (h : References.isNameChar c = true) :
    isPartialSymbol c = true := by
  simp only [References.isNameChar, Bool.or_eq_true] at h
  rcases h with ((h | h) | h) | h <;> simp [isPartialSymbol, isSymbol, h]

theorem not_isBlank_of_isNameChar {c : Char} (h : References.isNameChar c = true) :
    Text.isBlank c = false := by
  have bounds : 0x2D ≤ c.toNat ∧ c.toNat ≤ 0x7A := by
    delta References.isNameChar Char.isAlphanum Char.isAlpha Char.isUpper Char.isLower Char.isDigit
      at h
    simp only [Bool.or_eq_true, Bool.and_eq_true, decide_eq_true_eq, beq_iff_eq, ge_iff_le,
      UInt32.le_iff_toNat_le] at h
    rcases h with ((((h | h) | h) | rfl) | rfl) | rfl
    iterate 3 exact ⟨Nat.le_trans (by decide) h.1, Nat.le_trans h.2 (by decide)⟩
    all_goals decide
  simp only [Text.isBlank, Bool.or_eq_false_iff, Bool.and_eq_false_iff, decide_eq_false_iff_not,
    beq_eq_false_iff_ne]
  omega

theorem isBlank_of_isGap {c : Char} (h : isGap c = true) : Text.isBlank c = true := by
  simp only [isGap, Bool.or_eq_true, beq_iff_eq] at h
  rcases h with ((rfl | rfl) | rfl) | rfl <;> decide

/-- Behind the blanks that a tag allows no others come before a plain name. -/
theorem trimStart_eq_skipGap {c : Char} {r : List Char} (here : skipGap cs = c :: r)
    (h : References.isNameChar c = true) : Text.trimStart cs = c :: r := by
  have gaps : ∀ d ∈ cs.takeWhile isGap, Text.isBlank d = true := fun d mem =>
    isBlank_of_isGap (List.mem_takeWhile_imp mem)
  rw [skipGap] at here
  rw [← List.takeWhile_append_dropWhile (p := isGap) (l := cs), here, Text.trimStart,
    List.dropWhile_append_of_pos gaps,
    List.dropWhile_cons_of_neg (by rw [not_isBlank_of_isNameChar h]; decide)]

/-- A stretch of characters is that of a narrower kind, if they all are of it. -/
theorem takeWhile_isNameChar {name : List Char} (taken : cs.takeWhile isPartialSymbol = name)
    (plain : name.all References.isNameChar = true) :
    cs.takeWhile References.isNameChar = name := by
  have narrower : (fun c => References.isNameChar c && isPartialSymbol c) =
      References.isNameChar := by
    funext c
    cases h : References.isNameChar c with
    | false => rfl
    | true => exact isPartialSymbol_of_isNameChar h
  have both := List.takeWhile_takeWhile References.isNameChar isPartialSymbol cs
  simp only [Bool.decide_and, Bool.decide_eq_true, narrower, taken] at both
  rw [← both, List.takeWhile_eq_self_iff]
  exact List.all_eq_true.mp plain

/-- A plain name is read up to the first character that is of no name; a quoted one is not plain. -/
theorem partialName?_plain {name : String} (read : partialName? cs = some (name, rest))
    (plain : isPlainName name = true) : cs.takeWhile isPartialSymbol = name.toList := by
  rw [partialName?.eq_def] at read
  split at read
  · split at read
    · split at read
      · next quote =>
        split at read
        · cases read
          simp only [isPlainName, String.toList_ofList, List.cons_append, List.all_cons,
            Bool.and_eq_true] at plain
          simp only [Bool.or_eq_true, beq_iff_eq] at quote
          rcases quote with rfl | rfl <;> exact absurd plain.2.1 (by decide)
        · cases read
      · cases read
    · cases read
  · cases read
    rw [String.toList_ofList]

theorem partialName?_ne_none {c : Char} (h : isPartialSymbol c = true) :
    partialName? (c :: cs) ≠ none := by
  rw [partialName?.eq_def, List.takeWhile_cons_of_pos h]
  nofun

/-- The target of an inclusion, if it is a plain name, is what stands behind the blanks. -/
theorem takeWhile_of_inclusion {target : Expr} {args : Arguments} {name : String}
    (read : inclusion? cs = some ((target, args), rest)) (spelled : target.spelled? = some name)
    (plain : isPlainName name = true) :
    (Text.trimStart cs).takeWhile References.isNameChar = name.toList := by
  have taken : (skipGap cs).takeWhile isPartialSymbol = name.toList := by
    rcases inclusion?_eq_some read with ⟨w, r, word, rfl⟩ | ⟨noName, r, reference⟩
    · cases spelled
      exact partialName?_plain word plain
    · -- What spells a plain name is read as a name, never as a path.
      have behind := spelled_of_reference? reference spelled
      obtain ⟨c, more, first, symbol⟩ := exists_of_isPlainName plain
      rw [behind, first] at noName
      exact absurd noName (partialName?_ne_none (isPartialSymbol_of_isNameChar symbol))
  obtain ⟨c, more, first, letter⟩ := exists_of_isPlainName plain
  obtain ⟨behind, whole⟩ : name.toList <+: skipGap cs := taken ▸ List.takeWhile_prefix _
  have start : skipGap cs = c :: (more ++ behind) := by rw [← whole, first, List.cons_append]
  rw [trimStart_eq_skipGap start letter, ← start]
  exact takeWhile_isNameChar taken (Bool.and_eq_true_iff.mp plain).2

/-! ### Tags -/

/-- Behind the marks of an inclusion its target is read. -/
theorem content?_of_mark {open' : List Char} (isMark : open' ∈ [[], ['#']]) {r : List Char}
    {c : Content} (read : content? (open' ++ '>' :: r) = some (c, rest)) :
    ∃ target args, inclusion? r = some ((target, args), rest) ∧
      (c = .inclusion target args ∨ c = .inclusionOpen target args) := by
  simp only [List.mem_cons, List.not_mem_nil, or_false] at isMark
  rcases isMark with rfl | rfl <;>
  · obtain ⟨⟨⟨target, args⟩, rest'⟩, found, same⟩ := Option.map_eq_some_iff.mp read
    cases same
    exact ⟨target, args, found, by simp⟩

/-- A tag that starts as a reference does includes a partial. -/
theorem readTag?_of_mark {mark : List Char} (isMark : mark ∈ References.marks) {r : List Char}
    {t : Tag} (read : readTag? ('\x7b' :: '\x7b' :: (mark ++ '>' :: r)) = some (t, rest)) :
    ∃ target args rest', inclusion? r = some ((target, args), rest') ∧
      (t.content = .inclusion target args ∨ t.content = .inclusionOpen target args) := by
  have inside : ∃ before, ∃ open' ∈ [[], ['#']],
      tilde (mark ++ '>' :: r) = (before, open' ++ '>' :: r) := by
    simp only [References.marks, List.mem_cons, List.not_mem_nil, or_false] at isMark
    rcases isMark with rfl | rfl | rfl | rfl
    · exact ⟨false, [], by decide, by simp [tilde, skipGap, isGap]⟩
    · exact ⟨true, [], by decide, by simp [tilde, skipGap, isGap]⟩
    · exact ⟨false, ['#'], by decide, by simp [tilde, skipGap, isGap]⟩
    · exact ⟨true, ['#'], by decide, by simp [tilde, skipGap, isGap]⟩
  obtain ⟨before, open', isOpen, tilded⟩ := inside
  have noBranch : branchTag? before (open' ++ '>' :: r) = none := by
    simp only [List.mem_cons, List.not_mem_nil, or_false] at isOpen
    rcases isOpen with rfl | rfl <;> simp [branchTag?]
  simp only [readTag?, tilded, noBranch, Option.orElse_eq_or, Option.none_or] at read
  rcases Option.or_eq_some_iff.mp read with plain | ⟨-, other⟩
  · obtain ⟨⟨c, rest'⟩, content, ended⟩ := Option.bind_eq_some_iff.mp plain
    obtain ⟨⟨after, rest''⟩, -, same⟩ := Option.bind_eq_some_iff.mp ended
    obtain ⟨target, args, found, includes⟩ := content?_of_mark isOpen content
    cases same
    exact ⟨target, args, rest', found, includes⟩
  · -- Neither a third brace nor the mark of a comment follows.
    simp only [References.marks, List.mem_cons, List.not_mem_nil, or_false] at isMark
    rcases isMark with rfl | rfl | rfl | rfl <;> simp [skipGap, isGap] at other

/-- The name that the tag at the head of a text includes a partial by. -/
def includedAt? (cs : List Char) : Option String :=
  (readTag? cs).bind fun read => read.1.content.included?

/-- Somewhere in a text a tag includes the partial, with nothing but a tilde and a number sign
between the braces and the `>`, and by a plain name. -/
structure IncludesPlainly (text : List Char) (name : String) : Prop where
  plain : isPlainName name = true
  tag : ∃ mark ∈ References.marks, ∃ r, '\x7b' :: '\x7b' :: (mark ++ '>' :: r) <:+ text ∧
    includedAt? ('\x7b' :: '\x7b' :: (mark ++ '>' :: r)) = some name

/-- The partials that the tags of a template include plainly are among its references. -/
theorem IncludesPlainly.mem_ofTemplate {template name : String}
    (includes : IncludesPlainly template.toList name) : name ∈ References.ofTemplate template := by
  obtain ⟨plain, mark, isMark, r, suffix, found⟩ := includes
  obtain ⟨⟨t, rest⟩, read, included⟩ := Option.bind_eq_some_iff.mp found
  obtain ⟨target, args, rest', inclusion, content⟩ := readTag?_of_mark isMark read
  have spelled : target.spelled? = some name := by
    rcases content with content | content <;> rwa [content] at included
  have taken := takeWhile_of_inclusion inclusion spelled plain
  obtain ⟨c, more, first, -⟩ := exists_of_isPlainName plain
  have nonempty : name.toList ≠ [] := first ▸ List.cons_ne_nil c more
  exact References.mem_ofTemplate_iff.mpr ⟨_, _, suffix,
    References.name?_eq_some_iff.mpr ⟨mark, isMark, r, rfl, taken, nonempty, rfl⟩⟩

end Promptry.Template
