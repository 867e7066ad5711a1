import Promptry.Proofs.Template.Alike.Content
import Promptry.Proofs.Template.Exact.Argument

/-!
Contents of tags with references redirected, exactly. A content is read as the one in which the
paths are redirected, under the same name, with the same names for what it iterates over. Main
statements: `head?_follows`, `partialName?_follows` and `content?_follows`.
-/

namespace Promptry.Template

open DataVariables

variable {cs r s : List Char} {strict : Prop}

/-! ### Redirected contents -/

/-- A name whose arguments are redirected. -/
def Head.redirect (h : Head) : Head := { h with args := redirectIn h.args }

/-- The content of a tag with the paths in it redirected. -/
def Content.redirect : Content → Content
  | .value e => .value e.redirect
  | .call h => .call h.redirect
  | .blockOpen h => .blockOpen h.redirect
  | .chain h => .chain h.redirect
  | .decorator h => .decorator h.redirect
  | .decoratorOpen h => .decoratorOpen h.redirect
  | .inclusion name args => .inclusion name.redirect (redirectIn args)
  | .inclusionOpen name args => .inclusionOpen name.redirect (redirectIn args)
  | c => c

/-- A content with tidy paths and names only. -/
def Content.isTidy : Content → Bool
  | .value e => e.isTidy
  | .call h => tidyIn h.args
  | .blockOpen h => tidyIn h.args
  | .chain h => tidyIn h.args
  | .decorator h => tidyIn h.args
  | .decoratorOpen h => tidyIn h.args
  | .inclusion name args => name.isTidy && tidyIn args
  | .inclusionOpen name args => name.isTidy && tidyIn args
  | .close name => (Expr.word name).isTidy
  | _ => true

/-! ### Names with arguments -/

theorem word?_suffix {w : String} (read : word? cs = some (w, r)) : r <:+ cs :=
  (word?_alike (.refl cs)).suffix read

theorem barred?_passed {names : List String} (read : barred? cs = some (names, r)) :
    Passed cs r := by
  obtain ⟨⟨a, s⟩, word, behind⟩ := Option.bind_eq_some_iff.mp read
  refine (word?_passed word).trans ?_
  dsimp only at behind
  split at behind
  · next b t word' =>
    exact (Passed.gap s).trans ((word?_passed word').trans (before?_passed (by decide) behind))
  · exact before?_passed (by decide) behind

theorem params?_passed {names : List String} (read : params? cs = some (names, r)) :
    Passed cs r := by
  obtain ⟨s, as, behind⟩ := Option.bind_eq_some_iff.mp read
  obtain ⟨t, bar, names⟩ := Option.bind_eq_some_iff.mp behind
  refine (Passed.gap cs).trans ?_
  rw [afterAs?] at as
  split at as
  · next u word =>
    cases as
    rw [word]
    refine (Passed.bare (w := ['a', 's']) (by decide) u).trans ((Passed.gap u).trans ?_)
    rw [afterBar?.eq_def] at bar
    split at bar
    · next v open' =>
      cases bar
      rw [open']
      exact (Passed.tail (by decide) v).trans ((Passed.gap v).trans (barred?_passed names))
    · cases bar
  · cases as

theorem blockParams_follows {names : List String} (read : blockParams cs = (names, r)) :
    Follows strict (fun cs => some (blockParams cs)) cs names r := by
  rw [blockParams_eq] at read
  cases params : params? cs with
  | some found =>
    rw [params] at read
    obtain ⟨rfl, rfl⟩ := Prod.mk.inj read
    refine (Follows.of_passed (fun _ h => params?_alike h) params (params?_passed params)).imp ?_
    intro cs r found
    rw [blockParams_eq, found]
    rfl
  | none =>
    rw [params] at read
    obtain ⟨rfl, rfl⟩ := Prod.mk.inj read
    intro r' tail
    have reads := params?_alike tail
    rw [params] at reads
    exact ⟨r', .done, by simp only [blockParams_eq, reads.eq_none]; rfl⟩

theorem blockParams_suffix {names : List String} (read : blockParams cs = (names, r)) :
    r <:+ cs := by
  obtain ⟨-, w, -, spelled, -, -⟩ := blockParams_leaves (.refl cs)
  rw [read] at spelled
  exact ⟨w, spelled.symm⟩

theorem head?_eq (cs : List Char) : head? cs = (word? (skipGap cs)).bind fun (name, r) =>
    (some (readArguments r)).bind fun (args, r) =>
      (some (blockParams r)).bind fun (params, r) => some (⟨name, args, params⟩, r) := rfl

/-- A name with its arguments is read with the arguments redirected. -/
theorem head?_follows {h : Head} (read : head? cs = some (h, r))
    (tame : Tame strict cs r (tidyIn h.args = true)) : Follows strict head? cs h.redirect r := by
  rw [head?_eq] at read
  obtain ⟨⟨name, s⟩, word, behind⟩ := Option.bind_eq_some_iff.mp read
  obtain ⟨⟨args, t⟩, arguments, behind⟩ := Option.bind_eq_some_iff.mp behind
  obtain ⟨⟨params, u⟩, block, same⟩ := Option.bind_eq_some_iff.mp behind
  cases same
  have arguments := Option.some.inj arguments
  have block := Option.some.inj block
  have front := (word?_suffix word).trans (skipGap_suffix cs)
  have behind := (readArguments_suffix arguments)
  have last := blockParams_suffix block
  have tidy := ((tame.split front (last.trans behind)).2.split behind last).1
  suffices inside : Follows strict (fun cs => (word? cs).bind fun (name, r) =>
      (some (readArguments r)).bind fun (args, r) =>
        (some (blockParams r)).bind fun (params, r) => some (Head.mk name args params, r))
      (skipGap cs) _ r from inside.gap head?_eq
  exact (word?_follows word).bind ((readArguments_follows arguments tidy).bind
    ((blockParams_follows block).bind (follows_some _ _)))

theorem reference?_follows {e : Expr} (read : reference? cs = some (e, r))
    (tame : Tame strict cs r (e.isTidy = true)) : Follows strict reference? cs e.redirect r := by
  rw [reference?] at read
  cases call : readCall? cs with
  | some found =>
    rw [call] at read
    cases read
    exact (readCall?_follows call tame).orElse_left
  | none =>
    rw [call] at read
    obtain ⟨⟨p, s⟩, path, same⟩ := Option.map_eq_some_iff.mp read
    cases same
    rw [isTidy_path] at tame
    rw [redirect_path]
    exact .orElse_right (fun _ h => readCall?_alike h) call
      ((path?_follows path tame).map fun _ => rfl)

theorem shownCall?_eq (cs : List Char) :
    shownCall? cs = (called? cs).map fun ((name, args), r) => (.call ⟨name, args, []⟩, r) := by
  rw [shownCall?, called?]
  cases word? cs with
  | none => rfl
  | some found =>
    simp only [Option.bind_some]
    split <;> rfl

/-- What a tag shows is read as the redirected one. -/
theorem shown?_follows {c : Content} (read : shown? cs = some (c, r))
    (tame : Tame strict cs r (c.isTidy = true)) : Follows strict shown? cs c.redirect r := by
  have read : ((shownCall? (skipGap cs)).orElse fun _ =>
    (reference? (skipGap cs)).map fun p => (Content.value p.1, p.2)) = some (c, r) := read
  have inside : Follows strict (fun cs => (shownCall? cs).orElse fun _ =>
      (reference? cs).map fun p => (.value p.1, p.2)) (skipGap cs) c.redirect r := by
    cases call : shownCall? (skipGap cs) with
    | some found =>
      rw [call] at read
      cases read
      rw [shownCall?_eq] at call
      obtain ⟨⟨⟨name, args⟩, s⟩, called, same⟩ := Option.map_eq_some_iff.mp call
      cases same
      have behind := (called?_alike (.refl _)).suffix called
      have tidy := (tame.split (skipGap_suffix cs) behind).2
      exact (((called?_follows called tidy).map fun _ => rfl).of_eq shownCall?_eq).orElse_left
    | none =>
      rw [call] at read
      obtain ⟨⟨e, s⟩, reference, same⟩ := Option.map_eq_some_iff.mp read
      cases same
      have behind := (reference?_alike (.refl _)).suffix reference
      have tidy := (tame.split (skipGap_suffix cs) behind).2
      exact .orElse_right (fun _ h => shownCall?_alike h) call
        ((reference?_follows reference tidy).map fun _ => rfl)
  exact inside.gap fun _ => rfl

/-! ### Names of partials -/

theorem isBare_of_isPartialSymbol {c : Char} (symbol : isPartialSymbol c = true) :
    isBare c = true := by
  simp only [isPartialSymbol, Bool.or_eq_true, beq_iff_eq] at symbol
  rcases symbol with (symbol | rfl) | rfl
  · exact isBare_of_isSymbol symbol
  · decide
  · decide

theorem quotedName_spells {q : Char} {acc name : List Char}
    (read : quotedName q acc cs = some (name, r)) :
    ∃ w, name = acc.reverse ++ w ∧ cs = w ++ q :: r ∧ ('\\' ∉ w → q ∉ w) := by
  fun_induction quotedName q acc cs with
  | case1 => cases read
  | case2 acc c cs same ih =>
    obtain ⟨w, rfl, rfl, -⟩ := ih read
    exact ⟨'\\' :: c :: w, by simp, rfl, fun none => absurd List.mem_cons_self none⟩
  | case3 acc c cs other ih =>
    obtain ⟨w, rfl, spelled, -⟩ := ih read
    exact ⟨'\\' :: w, by simp, by rw [spelled, List.cons_append],
      fun none => absurd List.mem_cons_self none⟩
  | case4 acc c cs _ same =>
    obtain rfl : c = q := by simpa using same
    cases read
    exact ⟨[], by simp, rfl, fun _ => List.not_mem_nil⟩
  | case5 acc c cs _ other ih =>
    obtain ⟨w, rfl, rfl, free⟩ := ih read
    refine ⟨c :: w, by simp, rfl, fun none => ?_⟩
    rw [List.mem_cons, not_or] at none ⊢
    exact ⟨fun same => other (by simp [same]), free none.2⟩

/-- A name in quotes without backslashes is a literal. -/
theorem quotedPartial?_literal {q : Char} (isQuote : q = '"' ∨ q = '\'') {name : String}
    (read : quotedPartial? q cs = some (name, r)) :
    q :: cs = name.toList ++ r ∧
      ('\\' ∉ name.toList → DataVariables.literal? (q :: cs) = some (name.toList, r)) := by
  have noEscape : q ≠ '\\' := (isQuote_ne isQuote).1
  have start (s : List Char) : DataVariables.literal? (q :: s) = quoted? q [q] s := by
    rcases isQuote with rfl | rfl <;> rfl
  rw [quotedPartial?] at read
  split at read
  · next c w rest found =>
    cases read
    obtain ⟨v, same, rfl, free⟩ := quotedName_spells found
    obtain rfl : c :: w = v := by simpa using same
    rw [String.toList_ofList]
    refine ⟨by simp, fun none => ?_⟩
    have noBackslash : '\\' ∉ c :: w := fun mem => none (by simp at mem ⊢; tauto)
    rw [start, quoted?_over noBackslash (free noBackslash), quoted?_cons noEscape, if_pos rfl]
    simp
  · cases read

/-- The name of a partial is made up of symbols, or stands in quotes. -/
theorem partialName?_cases {name : String} (read : partialName? cs = some (name, r)) :
    (cs = name.toList ++ r ∧ name.toList.all isPartialSymbol = true) ∨
      ∃ q s, (q = '"' ∨ q = '\'') ∧ cs = q :: s ∧ quotedPartial? q s = some (name, r) := by
  cases symbols : cs.takeWhile isPartialSymbol with
  | cons c w =>
    rw [partialName?_of_symbols symbols] at read
    cases read
    rw [String.toList_ofList, ← symbols]
    exact .inl ⟨List.takeWhile_append_dropWhile.symm, List.all_takeWhile⟩
  | nil =>
    refine .inr ?_
    by_cases double : ∃ s, cs = '"' :: s
    · obtain ⟨s, rfl⟩ := double
      rw [partialName?_quote (.inl rfl)] at read
      exact ⟨_, s, .inl rfl, rfl, read⟩
    · by_cases single : ∃ s, cs = '\'' :: s
      · obtain ⟨s, rfl⟩ := single
        rw [partialName?_quote (.inr rfl)] at read
        exact ⟨_, s, .inr rfl, rfl, read⟩
      · rw [partialName?_of_ne symbols (fun s same => double ⟨s, same⟩)
          fun s same => single ⟨s, same⟩] at read
        cases read

theorem partialName?_spells {name : String} (read : partialName? cs = some (name, r)) :
    cs = name.toList ++ r := by
  rcases partialName?_cases read with ⟨spelled, -⟩ | ⟨q, s, isQuote, rfl, quoted⟩
  · exact spelled
  · exact (quotedPartial?_literal isQuote quoted).1

/-- A name of a partial is read as it is. -/
theorem partialName?_follows {name : String} (read : partialName? cs = some (name, r))
    (tame : Tame strict cs r ((Expr.word name).isTidy = true)) :
    Follows strict partialName? cs name r := by
  obtain rfl := partialName?_spells read
  have scanned (r' : List Char) :
      Scanned strict r r' (name.toList ++ r) (name.toList ++ r') := by
    rcases partialName?_cases read with ⟨-, symbols⟩ | ⟨q, s, isQuote, same, quoted⟩
    · exact .bare (List.all_eq_true.mpr fun c mem =>
        isBare_of_isPartialSymbol (List.all_eq_true.mp symbols c mem)) r r'
    · rcases tame.cases with tidy | ⟨loose, noAt⟩
      · have noBackslash : '\\' ∉ name.toList := by
          rw [Expr.isTidy] at tidy
          simpa using tidy
        have literal := (quotedPartial?_literal isQuote quoted).2 noBackslash
        rw [← same] at literal
        exact .literal literal .done
      · exact .stretch noAt (fun holds => absurd holds loose) r r'
  intro r' tail
  have reads := partialName?_alike ((scanned r').redirected tail)
  rw [read] at reads
  obtain ⟨name', found, -⟩ := reads.rest_eq (.refl _) tail
  obtain rfl : name = name' :=
    String.toList_inj.mp (List.append_cancel_right (partialName?_spells found))
  exact ⟨name.toList ++ r', scanned r', found⟩

theorem target?_follows {e : Expr} (read : target? cs = some (e, r))
    (tame : Tame strict cs r (e.isTidy = true)) : Follows strict target? cs e.redirect r := by
  rw [target?] at read
  cases named : partialName? cs with
  | some found =>
    rw [named] at read
    cases read
    rw [redirect_word]
    exact ((partialName?_follows named tame).map fun _ => rfl).orElse_left
  | none =>
    rw [named] at read
    have refused : ∀ ⦃cs'⦄, Redirected cs cs' → ReadsAlike (fun _ _ => True) cs cs'
        ((partialName? cs).map fun (w, r) => (Expr.word w, r))
        ((partialName? cs').map fun (w, r) => (Expr.word w, r)) := fun _ h =>
      (partialName?_alike h).map fun _ _ _ _ _ => ⟨rfl, rfl, trivial⟩
    exact .orElse_right refused (by rw [named]; rfl) (reference?_follows read tame)

theorem inclusion?_eq (cs : List Char) :
    inclusion? cs = (target? (skipGap cs)).bind fun (name, r) =>
      (some (readArguments r)).bind fun (args, r) => some ((name, args), r) := rfl

theorem inclusion?_follows {name : Expr} {args : Arguments}
    (read : inclusion? cs = some ((name, args), r))
    (tame : Tame strict cs r (name.isTidy = true ∧ tidyIn args = true)) :
    Follows strict inclusion? cs (name.redirect, redirectIn args) r := by
  rw [inclusion?_eq] at read
  obtain ⟨⟨name, s⟩, target, behind⟩ := Option.bind_eq_some_iff.mp read
  obtain ⟨⟨args, t⟩, arguments, same⟩ := Option.bind_eq_some_iff.mp behind
  cases same
  have arguments := Option.some.inj arguments
  have front := (target?_alike (.refl _)).suffix target
  have gap := skipGap_suffix cs
  have behind := readArguments_suffix arguments
  obtain ⟨tame₁, tame₂⟩ := tame.split (front.trans gap) behind
  suffices inside : Follows strict (fun cs => (target? cs).bind fun (name, r) =>
      (some (readArguments r)).bind fun (args, r) => some ((name, args), r))
      (skipGap cs) _ r from inside.gap inclusion?_eq
  exact (target?_follows target ((tame₁.split gap front).2.imp And.left)).bind
    ((readArguments_follows arguments (tame₂.imp And.right)).bind (follows_some _ _))

/-! ### Contents -/

/-- What opens a block, without a gap in front. -/
def openingAt? : Reader Content := fun cs =>
  match cs with
  | '*' :: r => (head? r).map fun (h, r) => (.decoratorOpen h, r)
  | '>' :: r => (inclusion? r).map fun ((name, args), r) => (.inclusionOpen name args, r)
  | r => (head? r).map fun (h, r) => (.blockOpen h, r)

theorem openingAt?_of_ne (ne : ∀ c ∈ ['*', '>'], ∀ s, cs ≠ c :: s) :
    openingAt? cs = (head? cs).map fun (h, r) => (.blockOpen h, r) := by
  rw [openingAt?.eq_def]
  split
  · next s => exact absurd rfl (ne '*' (by decide) s)
  · next s => exact absurd rfl (ne '>' (by decide) s)
  · rfl

theorem openingAt?_follows {c : Content} (read : openingAt? cs = some (c, r))
    (tame : Tame strict cs r (c.isTidy = true)) : Follows strict openingAt? cs c.redirect r := by
  by_cases marked : ∃ c ∈ ['*', '>'], ∃ s, cs = c :: s
  · obtain ⟨c, mem, s, rfl⟩ := marked
    simp only [List.mem_cons, List.not_mem_nil, or_false] at mem
    rcases mem with rfl | rfl
    · obtain ⟨⟨h, t⟩, head, same⟩ := Option.map_eq_some_iff.mp read
      cases same
      have tidy := (tame.split (List.suffix_cons _ s) ((head?_alike (.refl s)).suffix head)).2
      exact ((head?_follows head tidy).map fun _ => rfl).cons (by decide) fun _ => rfl
    · obtain ⟨⟨⟨name, args⟩, t⟩, inclusion, same⟩ := Option.map_eq_some_iff.mp read
      cases same
      have behind := (inclusion?_alike (.refl s)).suffix inclusion
      have tidy := (tame.split (List.suffix_cons _ s) behind).2
      have parts := tidy.imp Bool.and_eq_true_iff.mp
      exact ((inclusion?_follows inclusion parts).map fun _ => rfl).cons (by decide) fun _ => rfl
  · have ne : ∀ c ∈ ['*', '>'], ∀ s, cs ≠ c :: s := fun c mem s same => marked ⟨c, mem, s, same⟩
    rw [openingAt?_of_ne ne] at read
    obtain ⟨⟨h, t⟩, head, same⟩ := Option.map_eq_some_iff.mp read
    cases same
    refine ((head?_follows head tame).map fun _ => rfl).congr fun cs' h => openingAt?_of_ne ?_
    rcases h.marks_cases ['*', '>'] (by decide) with ⟨c, mem, s, -, same, -⟩ | ⟨-, ne'⟩
    · exact absurd same (ne c mem s)
    · exact ne'

/-- A content is read as the redirected one. -/
theorem content?_follows {c : Content} (read : content? cs = some (c, r))
    (tame : Tame strict cs r (c.isTidy = true)) : Follows strict content? cs c.redirect r := by
  by_cases marked : ∃ c ∈ contentMarks, ∃ s, cs = c :: s
  · obtain ⟨mark, mem, s, rfl⟩ := marked
    have gap := skipGap_suffix s
    have front : s <:+ mark :: s := List.suffix_cons _ _
    simp only [contentMarks, List.mem_cons, List.not_mem_nil, or_false] at mem
    rcases mem with rfl | rfl | rfl | rfl | rfl | rfl
    · have read : openingAt? (skipGap s) = some (c, r) := read
      have same : opening? (skipGap s) = some (c, r) := by
        rw [← read]
        exact congrArg openingAt? (skipGap_idem s)
      have tidy := (tame.split (gap.trans front) ((opening?_alike (.refl _)).suffix same)).2
      exact ((openingAt?_follows read tidy).gap fun _ => rfl).cons (by decide) fun _ => rfl
    · obtain ⟨⟨name, t⟩, named, same⟩ := Option.map_eq_some_iff.mp read
      cases same
      have tidy := (tame.split (gap.trans front) ((partialName?_alike (.refl _)).suffix named)).2
      have close : Follows strict (fun cs => (partialName? cs).map fun (name, r) =>
          (Content.close name, r)) (skipGap s) (.close name) r :=
        (partialName?_follows named tidy).map fun _ => rfl
      exact (close.gap fun _ => rfl).cons (by decide) fun _ => rfl
    · obtain ⟨⟨h, t⟩, head, same⟩ := Option.map_eq_some_iff.mp read
      cases same
      have tidy := (tame.split front ((head?_alike (.refl s)).suffix head)).2
      exact ((head?_follows head tidy).map fun _ => rfl).cons (by decide) fun _ => rfl
    · obtain ⟨⟨⟨name, args⟩, t⟩, inclusion, same⟩ := Option.map_eq_some_iff.mp read
      cases same
      have tidy := (tame.split front ((inclusion?_alike (.refl s)).suffix inclusion)).2
      have parts := tidy.imp Bool.and_eq_true_iff.mp
      exact ((inclusion?_follows inclusion parts).map fun _ => rfl).cons (by decide) fun _ => rfl
    · obtain ⟨⟨e, t⟩, reference, same⟩ := Option.map_eq_some_iff.mp read
      cases same
      have tidy := (tame.split (gap.trans front) ((reference?_alike (.refl _)).suffix reference)).2
      have value : Follows strict (fun cs => (reference? cs).map fun (e, r) =>
          (Content.value e, r)) (skipGap s) (.value e.redirect) r :=
        (reference?_follows reference tidy).map fun _ => rfl
      exact (value.gap fun _ => rfl).cons (by decide) fun _ => rfl
    · rw [content?_brace] at read
      obtain ⟨⟨d, t⟩, shown, closing⟩ := Option.bind_eq_some_iff.mp read
      obtain ⟨rfl, close⟩ := before?_eq_some closing
      have behind := (before?_passed (by decide) closing).suffix
      have inside := (shown?_alike (.refl s)).suffix shown
      have tidy := ((tame.split front (behind.trans inside)).2.split inside behind).1
      exact ((shown?_follows shown tidy).bind (.before? (by decide) close _)).cons (by decide)
        content?_brace
  · have ne : ∀ c ∈ contentMarks, ∀ s, cs ≠ c :: s := fun c mem s same => marked ⟨c, mem, s, same⟩
    rw [content?_of_ne ne] at read
    refine (shown?_follows read tame).congr fun cs' h => content?_of_ne ?_
    rcases h.marks_cases contentMarks (by decide) with ⟨c, mem, s, -, same, -⟩ | ⟨-, ne'⟩
    · exact absurd same (ne c mem s)
    · exact ne'

end Promptry.Template
