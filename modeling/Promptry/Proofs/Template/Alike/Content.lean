import Promptry.Proofs.Template.Alike.Argument

/-!
Contents of tags with references redirected. They have the same mark and the same name for a helper,
and what they hold stays valid; only a name in quotes, of a partial, may hold at signs of its own
and come out as another one. Main statement: `content?_alike`.
-/

namespace Promptry.Template

open DataVariables

variable {cs cs' r r' : List Char}

/-! ### Contents alike -/

/-- A name, its arguments staying valid. -/
structure HeadAlike (h h' : Head) : Prop where
  name : h'.name = h.name
  args : AllStayValid h.args h'.args

/-- A name as it may stand for a partial. -/
def IsPartialName (name : String) : Prop := ∃ cs r, partialName? cs = some (name, r)

/-- The second name is the first one with something put in behind at signs. -/
abbrev RenamedName (name name' : String) : Prop := Renamed name.toList name'.toList

/-- What a block of a partial is opened by: a name, up to what was put in, or else an expression
that no name of a partial spells. -/
inductive TargetAlike : Expr → Expr → Prop
  | name {w w' : String} (renamed : RenamedName w w') : TargetAlike (.word w) (.word w')
  | other {e e' : Expr} (unnamed : ∀ name, IsPartialName name → exprName e ≠ name)
      (stays : StaysValid e e') : TargetAlike e e'

/-- The contents of a tag before and after. -/
inductive ContentAlike : Content → Content → Prop
  | value {e e' : Expr} (stays : StaysValid e e') : ContentAlike (.value e) (.value e')
  | call {h h' : Head} (head : HeadAlike h h') : ContentAlike (.call h) (.call h')
  | blockOpen {h h' : Head} (head : HeadAlike h h') : ContentAlike (.blockOpen h) (.blockOpen h')
  | chain {h h' : Head} (head : HeadAlike h h') : ContentAlike (.chain h) (.chain h')
  | otherwise : ContentAlike .otherwise .otherwise
  | close {name name' : String} (named : IsPartialName name) (renamed : RenamedName name name') :
      ContentAlike (.close name) (.close name')
  | decorator {h h' : Head} (head : HeadAlike h h') : ContentAlike (.decorator h) (.decorator h')
  | decoratorOpen {h h' : Head} (head : HeadAlike h h') :
      ContentAlike (.decoratorOpen h) (.decoratorOpen h')
  | inclusion {e e' : Expr} {args args' : Arguments} (target : TargetAlike e e')
      (stay : AllStayValid args args') : ContentAlike (.inclusion e args) (.inclusion e' args')
  | inclusionOpen {e e' : Expr} {args args' : Arguments} (target : TargetAlike e e')
      (stay : AllStayValid args args') :
      ContentAlike (.inclusionOpen e args) (.inclusionOpen e' args')
  | comment : ContentAlike .comment .comment

theorem TargetAlike.stays {e e' : Expr} (target : TargetAlike e e') : StaysValid e e' := by
  cases target with
  | name => exact fun _ => by simp [Expr.firstInvalid?]
  | other _ stays => exact stays

/-- What is valid in a tag stays valid. -/
theorem ContentAlike.invalid? {c c' : Content} (alike : ContentAlike c c')
    (valid : c.invalid? = none) : c'.invalid? = none := by
  have inclusion {e e' : Expr} {args args' : Arguments} (target : TargetAlike e e')
      (stay : AllStayValid args args')
      (valid : (e.firstInvalid?.orElse fun _ => firstInvalidIn? args) = none) :
      (e'.firstInvalid?.orElse fun _ => firstInvalidIn? args') = none := by
    rw [Option.orElse_eq_or, Option.or_eq_none_iff] at valid
    rw [target.stays valid.1, stay.firstInvalidIn? valid.2]
    rfl
  cases alike with
  | value stays => exact stays valid
  | call head => exact head.args.firstInvalidIn? valid
  | blockOpen head => exact head.args.firstInvalidIn? valid
  | chain head => exact head.args.firstInvalidIn? valid
  | decorator head => exact head.args.firstInvalidIn? valid
  | decoratorOpen head => exact head.args.firstInvalidIn? valid
  | inclusion target stay => exact inclusion target stay valid
  | inclusionOpen target stay => exact inclusion target stay valid
  | otherwise => rfl
  | close => rfl
  | comment => rfl

/-! ### Names with arguments -/

/-- The names between bars, behind the first of these. -/
def barred? : Reader (List String) := fun cs =>
  (word? cs).bind fun (a, r) =>
    match word? (skipGap r) with
    | some (b, r) => before? '|' [a, b] r
    | none => before? '|' [a] r

/-- The rest behind the bar in front of the names. -/
def afterBar? (cs : List Char) : Option (List Char) :=
  match cs with
  | '|' :: r => some (skipGap r)
  | _ => none

/-- The rest behind the word in front of the bar. -/
def afterAs? (cs : List Char) : Option (List Char) :=
  match skipGap cs with
  | 'a' :: 's' :: r => some (skipGap r)
  | _ => none

def params? : Reader (List String) := fun cs =>
  (afterAs? cs).bind fun r => (afterBar? r).bind barred?

theorem barred?_eq (cs : List Char) : barred? cs = (do
    let (a, r) ← word? cs
    let (more, r) := match word? (skipGap r) with
      | some (b, r) => ([b], r)
      | none => ([], r)
    match skipGap r with
      | '|' :: r => some (a :: more, r)
      | _ => none) := by
  have closing (names : List String) (r : List Char) : before? '|' names r =
      match skipGap r with
        | '|' :: r => some (names, r)
        | _ => none := by
    split
    · next s bar => rw [before?_of_cons names bar]
    · next ne => rw [before?_of_ne names ne]
  rw [barred?]
  refine congrArg _ (funext fun (a, r) => ?_)
  dsimp only
  cases word? (skipGap r) with
  | none => exact closing [a] r
  | some found => exact closing [a, found.1] found.2

theorem blockParams_eq (cs : List Char) : blockParams cs = (params? cs).getD ([], cs) := by
  have names := funext barred?_eq
  rw [params?, names]
  rfl

theorem barred?_alike (h : Redirected cs cs') :
    ReadsAlike Eq cs cs' (barred? cs) (barred? cs') := by
  have bar (names : List String) {s s' : List Char} (rest : Redirected s s') :
      ReadsAlike Eq s s' (before? '|' names s) (before? '|' names s') :=
    before?_alike (by decide) rfl rest
  refine (word?_alike h).bind fun a a' r r' same left _ => .behind left ?_
  obtain rfl : a = a' := same
  have gap := Leaves.skipGap left.rest
  rcases (word?_alike gap.rest).cases with
    ⟨none, none'⟩ | ⟨b, b', s, s', word, word', same, more, -⟩
  · simp only [none, none']
    exact bar _ left.rest
  · obtain rfl : b = b' := same
    simp only [word, word']
    exact .behind (gap.trans more) (bar _ more.rest)

theorem afterBar?_of_ne (ne : ∀ s, cs ≠ '|' :: s) : afterBar? cs = none := by
  rw [afterBar?.eq_def]
  split
  · next s => exact absurd rfl (ne s)
  · rfl

theorem afterAs?_of_ne (ne : ∀ s, skipGap cs ≠ ['a', 's'] ++ s) : afterAs? cs = none := by
  rw [afterAs?]
  split
  · next s same => exact absurd same (ne s)
  · rfl

theorem afterAs?_of_word {s : List Char} (word : skipGap cs = ['a', 's'] ++ s) :
    afterAs? cs = some (skipGap s) := by
  rw [afterAs?, word]
  rfl

theorem params?_alike (h : Redirected cs cs') :
    ReadsAlike Eq cs cs' (params? cs) (params? cs') := by
  have gap := Leaves.skipGap h
  rw [params?, params?]
  rcases gap.rest.prefix_cases ['a', 's'] (by decide) with ⟨s, s', word, word', rest⟩ | ⟨ne, ne'⟩
  · rw [word, word'] at gap
    have left := gap.trans ((Leaves.behind ['a', 's'] rest).trans (.skipGap rest))
    rw [afterAs?_of_word word, afterAs?_of_word word', Option.bind_some, Option.bind_some]
    rcases left.rest.head_cases '|' (by decide) with ⟨t, t', bar, bar', tail⟩ | ⟨ne, ne'⟩
    · rw [bar, bar'] at left
      have behind := left.trans ((Leaves.tail tail).trans (.skipGap tail))
      rw [bar, bar']
      exact .behind behind (barred?_alike behind.rest)
    · rw [afterBar?_of_ne ne, afterBar?_of_ne ne']
      exact .refused
  · rw [afterAs?_of_ne ne, afterAs?_of_ne ne']
    exact .refused

theorem blockParams_leaves (h : Redirected cs cs') :
    Leaves cs cs' (blockParams cs).2 (blockParams cs').2 := by
  rw [blockParams_eq, blockParams_eq]
  rcases (params?_alike h).cases with ⟨none, none'⟩ | ⟨a, a', r, r', some, some', -, left, -⟩
  · rw [none, none']
    exact .refl h
  · rw [some, some']
    exact left

theorem head?_alike (h : Redirected cs cs') :
    ReadsAlike HeadAlike cs cs' (head? cs) (head? cs') := by
  have gap := Leaves.skipGap h
  refine .behind gap ?_
  refine (word?_alike gap.rest).bind fun name name' r r' same left shorter => ?_
  obtain ⟨behind, stay⟩ := readArguments_alike left.rest
  have params := blockParams_leaves behind.rest
  exact .read ⟨same.symm, stay⟩ (left.trans (behind.trans params))
    (Nat.lt_of_le_of_lt (behind.trans params).length_le shorter)

theorem reference?_alike (h : Redirected cs cs') :
    ReadsAlike StaysValid cs cs' (reference? cs) (reference? cs') :=
  (readCall?_alike h).orElse <|
    (path?_alike h).map fun _ _ _ _ _ => ⟨rfl, rfl, staysValid_path _ _⟩

/-- A name with arguments, where a value may stand. -/
def shownCall? : Reader Content := fun cs =>
  match word? cs with
  | none => none
  | some (name, r) =>
    let (args, r) := readArguments r
    if args.isEmpty then none else some (.call ⟨name, args, []⟩, r)

theorem shownCall?_alike (h : Redirected cs cs') :
    ReadsAlike ContentAlike cs cs' (shownCall? cs) (shownCall? cs') := by
  rcases (word?_alike h).cases with ⟨none, none'⟩ | ⟨k, k', r, r', word, word', same, left, shorter⟩
  · rw [shownCall?, shownCall?, none, none']
    exact .refused
  · obtain ⟨behind, stay⟩ := readArguments_alike left.rest
    simp only [shownCall?, word, word', stay.isEmpty_eq]
    split
    · exact .refused
    · exact .read (.call ⟨same.symm, stay⟩) (left.trans behind)
        (Nat.lt_of_le_of_lt behind.length_le shorter)

theorem shown?_alike (h : Redirected cs cs') :
    ReadsAlike ContentAlike cs cs' (shown? cs) (shown? cs') := by
  have gap := Leaves.skipGap h
  exact .behind gap ((shownCall?_alike gap.rest).orElse <|
    (reference?_alike gap.rest).map fun _ _ _ _ stays => ⟨rfl, rfl, .value stays⟩)

/-! ### Names of partials -/

theorem isQuote_ne {q : Char} (isQuote : q = '"' ∨ q = '\'') : q ≠ '\\' ∧ q ≠ '@' := by
  rcases isQuote with rfl | rfl <;> decide

theorem quotedName_cons {q c : Char} (ne : q ≠ '\\') (acc : List Char)
    (plain : c = '\\' → ∀ s, r ≠ q :: s) :
    quotedName q acc (c :: r) =
      if c = q then some (acc.reverse, r) else quotedName q (c :: acc) r := by
  rw [quotedName.eq_def]
  split
  · next same => cases same
  · next d s same =>
    obtain ⟨rfl, rfl⟩ := List.cons.inj same
    have other : d ≠ q := fun same => plain rfl s (same ▸ rfl)
    simp [other, Ne.symm ne]
  · next same =>
    obtain ⟨rfl, rfl⟩ := List.cons.inj same
    simp

theorem quotedName_escaped (q : Char) (acc : List Char) :
    quotedName q acc ('\\' :: q :: r) = quotedName q (q :: '\\' :: acc) r := by
  rw [quotedName]
  simp

/-- Over a stretch without backslashes and quotes. -/
theorem quotedName_over {q : Char} (ne : q ≠ '\\') {w : List Char} (noEscape : '\\' ∉ w)
    (noQuote : q ∉ w) (acc r : List Char) :
    quotedName q acc (w ++ r) = quotedName q (w.reverse ++ acc) r := by
  induction w generalizing acc with
  | nil => rfl
  | cons c w ih =>
    obtain ⟨plain, noEscape⟩ := List.ne_and_not_mem_of_not_mem_cons noEscape
    obtain ⟨other, noQuote⟩ := List.ne_and_not_mem_of_not_mem_cons noQuote
    rw [List.cons_append, quotedName_cons ne acc fun same => absurd same plain.symm,
      if_neg other.symm, ih noEscape noQuote]
    simp

/-- A quoted name, with something put in. -/
theorem quotedName_alike {q : Char} (isQuote : q = '"' ∨ q = '\'') {cs cs' acc acc' : List Char}
    (h : Redirected cs cs') (before : Renamed acc.reverse acc'.reverse) :
    ReadsAlike Renamed cs cs' (quotedName q acc cs) (quotedName q acc' cs') := by
  obtain ⟨noEscape, notAt⟩ := isQuote_ne isQuote
  have grows (w : List Char) : Renamed (w.reverse ++ acc).reverse (w.reverse ++ acc').reverse := by
    rw [List.reverse_append, List.reverse_append]
    exact before.append (.refl _)
  cases h with
  | nil => simp only [quotedName]; exact .refused
  | @splice r r' here rest =>
    have noQuote : q ∉ '@' :: redirection := by rcases isQuote with rfl | rfl <;> decide
    rw [quotedName_cons noEscape acc fun same => absurd same (by decide), if_neg notAt.symm,
      ← List.cons_append, quotedName_over noEscape (by decide) noQuote]
    refine .behind (.splice rest) (quotedName_alike isQuote rest ?_)
    rw [List.reverse_cons, List.reverse_append, List.reverse_reverse]
    exact before.append (.splice trivial .nil)
  | @cons c r r' rest =>
    by_cases escape : c = '\\' ∧ ∃ s, r = q :: s
    · obtain ⟨rfl, s, rfl⟩ := escape
      obtain ⟨s', rfl, below⟩ := rest.of_cons notAt
      rw [quotedName_escaped, quotedName_escaped]
      exact .behind (.behind ['\\', q] below)
        (quotedName_alike isQuote below (grows ['\\', q]))
    · have plain : c = '\\' → ∀ s, r ≠ q :: s := fun same s spelled => escape ⟨same, s, spelled⟩
      have plain' : c = '\\' → ∀ s', r' ≠ q :: s' := by
        rintro same s' rfl
        obtain ⟨s, rfl, -⟩ := rest.to_cons notAt
        exact plain same s rfl
      rw [quotedName_cons noEscape acc plain, quotedName_cons noEscape acc' plain']
      split
      · exact .read before (.tail rest) (Nat.lt_succ_self _)
      · exact .behind (.tail rest) (quotedName_alike isQuote rest (grows [c]))
termination_by cs.length

/-- A name in quotes, which it keeps. -/
def quotedPartial? (q : Char) (cs : List Char) : Option (String × List Char) :=
  match quotedName q [] cs with
  | some (c :: name, rest) => some (String.ofList (q :: c :: name ++ [q]), rest)
  | _ => none

theorem quotedPartial?_alike {q : Char} (isQuote : q = '"' ∨ q = '\'') (h : Redirected cs cs') :
    ReadsAlike RenamedName cs cs' (quotedPartial? q cs) (quotedPartial? q cs') := by
  have reads : ReadsAlike Renamed cs cs' (quotedName q [] cs) (quotedName q [] cs') :=
    quotedName_alike isQuote h .nil
  rcases reads.cases with
    ⟨none, none'⟩ | ⟨name, name', r, r', read, read', renamed, left, shorter⟩
  · rw [quotedPartial?, quotedPartial?, none, none']
    exact .refused
  · rw [quotedPartial?, quotedPartial?, read, read']
    have renamed : Renamed name name' := renamed
    cases name with
    | nil =>
      obtain rfl := renamed.eq_nil_iff.mpr rfl
      exact .refused
    | cons c name =>
      cases name' with
      | nil => exact absurd (renamed.eq_nil_iff.mp rfl) (List.cons_ne_nil c name)
      | cons c' name' =>
        refine .read ?_ left shorter
        show Renamed _ _
        rw [String.toList_ofList, String.toList_ofList]
        exact .cons q (renamed.append (.refl _))

theorem partialName?_of_symbols {c : Char} {w : List Char}
    (symbols : cs.takeWhile isPartialSymbol = c :: w) :
    partialName? cs = some (String.ofList (c :: w), cs.dropWhile isPartialSymbol) := by
  rw [partialName?.eq_def, symbols]

theorem partialName?_quote {q : Char} (isQuote : q = '"' ∨ q = '\'') (r : List Char) :
    partialName? (q :: r) = quotedPartial? q r := by
  rw [partialName?.eq_def, List.takeWhile_cons_of_neg]
  · rcases isQuote with rfl | rfl <;> rfl
  · rcases isQuote with rfl | rfl <;> decide

theorem partialName?_of_ne (symbols : cs.takeWhile isPartialSymbol = [])
    (ne : ∀ r, cs ≠ '"' :: r) (ne' : ∀ r, cs ≠ '\'' :: r) : partialName? cs = none := by
  rw [partialName?.eq_def, symbols]
  cases cs with
  | nil => rfl
  | cons q r =>
    have double : q ≠ '"' := fun same => ne r (same ▸ rfl)
    have single : q ≠ '\'' := fun same => ne' r (same ▸ rfl)
    simp [double, single]

theorem partialName?_alike (h : Redirected cs cs') :
    ReadsAlike RenamedName cs cs' (partialName? cs) (partialName? cs') := by
  cases symbols : cs.takeWhile isPartialSymbol with
  | cons c w =>
    have same := h.takeWhile_eq (p := isPartialSymbol) (by decide)
    rw [partialName?_of_symbols symbols, partialName?_of_symbols (same.trans symbols)]
    refine .read (.refl _) (.dropWhile (by decide) h) ?_
    have whole := congrArg List.length
      (List.takeWhile_append_dropWhile (p := isPartialSymbol) (l := cs))
    rw [symbols, List.length_append, List.length_cons] at whole
    omega
  | nil =>
    have none' := (h.takeWhile_eq (p := isPartialSymbol) (by decide)).trans symbols
    rcases h.head_cases '"' (by decide) with ⟨r, r', rfl, rfl, rest⟩ | ⟨ne, ne'⟩
    · rw [partialName?_quote (.inl rfl), partialName?_quote (.inl rfl)]
      exact .behind (.tail rest) (quotedPartial?_alike (.inl rfl) rest)
    · rcases h.head_cases '\'' (by decide) with ⟨r, r', rfl, rfl, rest⟩ | ⟨other, other'⟩
      · rw [partialName?_quote (.inr rfl), partialName?_quote (.inr rfl)]
        exact .behind (.tail rest) (quotedPartial?_alike (.inr rfl) rest)
      · rw [partialName?_of_ne symbols ne other, partialName?_of_ne none' ne' other']
        exact .refused

/-- A name of a partial starts with a character of such names or with a quote. -/
theorem IsPartialName.starts {name : String} (named : IsPartialName name) :
    ∃ c w, name.toList = c :: w ∧ (isPartialSymbol c = true ∨ c = '"' ∨ c = '\'') := by
  obtain ⟨cs, r, read⟩ := named
  cases symbols : cs.takeWhile isPartialSymbol with
  | cons c w =>
    rw [partialName?_of_symbols symbols] at read
    cases read
    have symbol : c ∈ cs.takeWhile isPartialSymbol := symbols ▸ List.mem_cons_self
    exact ⟨c, w, String.toList_ofList, .inl (List.mem_takeWhile_imp symbol)⟩
  | nil =>
    have quoted {q : Char} {s : List Char} (found : quotedPartial? q s = some (name, r)) :
        ∃ w, name.toList = q :: w := by
      rw [quotedPartial?] at found
      split at found
      · cases found
        exact ⟨_, String.toList_ofList⟩
      · cases found
    by_cases double : ∃ s, cs = '"' :: s
    · obtain ⟨s, rfl⟩ := double
      rw [partialName?_quote (.inl rfl)] at read
      obtain ⟨w, same⟩ := quoted read
      exact ⟨_, w, same, .inr (.inl rfl)⟩
    · by_cases single : ∃ s, cs = '\'' :: s
      · obtain ⟨s, rfl⟩ := single
        rw [partialName?_quote (.inr rfl)] at read
        obtain ⟨w, same⟩ := quoted read
        exact ⟨_, w, same, .inr (.inr rfl)⟩
      · rw [partialName?_of_ne symbols (fun s same => double ⟨s, same⟩)
          fun s same => single ⟨s, same⟩] at read
        cases read

/-- The name of a helper may stand for a partial. -/
theorem isPartialName_of_word? {name : String} (read : word? cs = some (name, r)) :
    IsPartialName name := by
  have word : name.toList ≠ [] ∧ ∀ c ∈ name.toList, isSymbol c = true := by
    rw [word?] at read
    split at read
    · cases read
    · next nonempty =>
      cases read
      rw [String.toList_ofList]
      exact ⟨fun empty => nonempty empty, fun c mem => List.mem_takeWhile_imp mem⟩
  have symbols : ∀ c ∈ name.toList, isPartialSymbol c = true := fun c mem => by
    rw [isPartialSymbol, word.2 c mem]
    rfl
  refine ⟨name.toList, [], ?_⟩
  have whole := List.takeWhile_eq_self_iff.mpr symbols
  have none := List.dropWhile_eq_nil_iff.mpr symbols
  cases spelled : name.toList with
  | nil => exact absurd spelled word.1
  | cons c w =>
    rw [spelled] at whole none
    rw [partialName?_of_symbols whole, none, ← spelled, String.ofList_toList]

theorem reference?_quote {q : Char} (isQuote : q = '"' ∨ q = '\'') (r : List Char) :
    reference? (q :: r) = none := by
  have noSymbol : isSymbol q = false := by rcases isQuote with rfl | rfl <;> decide
  rcases isQuote with rfl | rfl <;>
    simp [reference?, readCall?, path?, currentMark, rootStep, loopStep, upSteps, keyName?, word?,
      noSymbol]

/-- What is no name of a partial but a reference shows as no name of a partial. -/
theorem exprName_of_reference? {e : Expr} {name : String} (noName : partialName? cs = none)
    (read : reference? cs = some (e, r)) (named : IsPartialName name) : exprName e ≠ name := by
  rintro rfl
  obtain ⟨c, w, starts, kind⟩ := named.starts
  cases spelled : e.spelled? with
  | some name =>
    have behind := spelled_of_reference? read spelled
    have same : exprName e = name := by
      cases e <;> cases spelled <;> rfl
    rw [← same, starts] at behind
    rcases kind with symbol | quote
    · exact partialName?_ne_none symbol (behind ▸ noName)
    · rw [behind, List.cons_append, reference?_quote quote] at read
      cases read
  | none =>
    rw [reference?, Option.orElse_eq_or] at read
    rcases Option.or_eq_some_iff.mp read with call | ⟨-, path⟩
    · obtain ⟨head, args, rfl⟩ := readCall?_eq_call call
      cases starts
    · obtain ⟨⟨p, s⟩, -, same⟩ := Option.map_eq_some_iff.mp path
      cases same
      cases spelled

/-! ### Contents -/

/-- The target of an inclusion and its arguments. -/
def InclusionAlike (p p' : Expr × Arguments) : Prop :=
  TargetAlike p.1 p'.1 ∧ AllStayValid p.2 p'.2

/-- The target of an inclusion. -/
def target? : Reader Expr := fun cs =>
  ((partialName? cs).map fun (w, r) => (Expr.word w, r)).orElse fun _ => reference? cs

theorem target?_alike (h : Redirected cs cs') :
    ReadsAlike TargetAlike cs cs' (target? cs) (target? cs') := by
  rw [target?, target?]
  rcases (partialName?_alike h).cases with
    ⟨none, none'⟩ | ⟨name, name', r, r', read, read', renamed, left, shorter⟩
  · rcases (reference?_alike h).cases with
      ⟨missing, missing'⟩ | ⟨e, e', r, r', read, read', stays, left, shorter⟩
    · rw [none, none', missing, missing']
      exact .refused
    · rw [none, none', read, read']
      exact .read (.other (fun _ => exprName_of_reference? none read) stays) left shorter
  · rw [read, read']
    exact .read (.name renamed) left shorter

theorem inclusion?_alike (h : Redirected cs cs') :
    ReadsAlike InclusionAlike cs cs' (inclusion? cs) (inclusion? cs') := by
  have gap := Leaves.skipGap h
  refine .behind gap ?_
  refine (target?_alike gap.rest).bind fun e e' r r' target left shorter => ?_
  obtain ⟨behind, stay⟩ := readArguments_alike left.rest
  exact .read ⟨target, stay⟩ (left.trans behind) (Nat.lt_of_le_of_lt behind.length_le shorter)

/-- The marks in front of contents. -/
def contentMarks : List Char := ['#', '/', '*', '>', '&', '\x7b']

theorem content?_of_ne (ne : ∀ c ∈ contentMarks, ∀ r, cs ≠ c :: r) : content? cs = shown? cs := by
  rw [content?.eq_def]
  split
  · next r => exact absurd rfl (ne '#' (by decide) r)
  · next r => exact absurd rfl (ne '/' (by decide) r)
  · next r => exact absurd rfl (ne '*' (by decide) r)
  · next r => exact absurd rfl (ne '>' (by decide) r)
  · next r => exact absurd rfl (ne '&' (by decide) r)
  · next r => exact absurd rfl (ne '\x7b' (by decide) r)
  · rfl

/-- What opens a block, behind its mark. -/
def opening? : Reader Content := fun cs =>
  match skipGap cs with
  | '*' :: r => (head? r).map fun (h, r) => (.decoratorOpen h, r)
  | '>' :: r => (inclusion? r).map fun ((name, args), r) => (.inclusionOpen name args, r)
  | r => (head? r).map fun (h, r) => (.blockOpen h, r)

theorem opening?_of_ne (ne : ∀ r, skipGap cs ≠ '*' :: r) (ne' : ∀ r, skipGap cs ≠ '>' :: r) :
    opening? cs = (head? (skipGap cs)).map fun (h, r) => (.blockOpen h, r) := by
  rw [opening?]
  split
  · next r same => exact absurd same (ne r)
  · next r same => exact absurd same (ne' r)
  · rfl

theorem opening?_alike (h : Redirected cs cs') :
    ReadsAlike ContentAlike cs cs' (opening? cs) (opening? cs') := by
  have gap := Leaves.skipGap h
  rcases gap.rest.head_cases '*' (by decide) with ⟨r, r', mark, mark', rest⟩ | ⟨ne, ne'⟩
  · rw [opening?, opening?, mark, mark']
    rw [mark, mark'] at gap
    exact .behind (gap.trans (.tail rest))
      ((head?_alike rest).map fun _ _ _ _ head => ⟨rfl, rfl, .decoratorOpen head⟩)
  · rcases gap.rest.head_cases '>' (by decide) with ⟨r, r', mark, mark', rest⟩ | ⟨other, other'⟩
    · rw [opening?, opening?, mark, mark']
      rw [mark, mark'] at gap
      exact .behind (gap.trans (.tail rest)) ((inclusion?_alike rest).map
        fun _ _ _ _ inclusion => ⟨rfl, rfl, .inclusionOpen inclusion.1 inclusion.2⟩)
    · rw [opening?_of_ne ne other, opening?_of_ne ne' other']
      exact .behind gap ((head?_alike gap.rest).map fun _ _ _ _ head => ⟨rfl, rfl, .blockOpen head⟩)

theorem content?_brace (r : List Char) :
    content? ('\x7b' :: r) = (shown? r).bind fun (c, r) => before? '\x7d' c r := by
  rw [content?]
  refine congrArg _ (funext fun (c, r) => ?_)
  dsimp only
  split
  · next s mark => rw [before?_of_cons c mark]
  · next ne => rw [before?_of_ne c ne]

theorem content?_alike (h : Redirected cs cs') :
    ReadsAlike ContentAlike cs cs' (content? cs) (content? cs') := by
  rcases h.marks_cases contentMarks (by decide) with ⟨c, mem, r, r', rfl, rfl, rest⟩ | ⟨ne, ne'⟩
  · have gap := Leaves.skipGap rest
    refine .behind (.tail rest) ?_
    simp only [contentMarks, List.mem_cons, List.not_mem_nil, or_false] at mem
    rcases mem with rfl | rfl | rfl | rfl | rfl | rfl
    · exact opening?_alike rest
    · refine .behind gap ?_
      rcases (partialName?_alike gap.rest).cases with
        ⟨none, none'⟩ | ⟨name, name', r, r', read, read', renamed, left, shorter⟩
      · rw [content?, content?, none, none']
        exact .refused
      · rw [content?, content?, read, read']
        exact .read (.close ⟨_, _, read⟩ renamed) left shorter
    · exact (head?_alike rest).map fun _ _ _ _ head => ⟨rfl, rfl, .decorator head⟩
    · exact (inclusion?_alike rest).map
        fun _ _ _ _ inclusion => ⟨rfl, rfl, .inclusion inclusion.1 inclusion.2⟩
    · exact .behind gap
        ((reference?_alike gap.rest).map fun _ _ _ _ stays => ⟨rfl, rfl, .value stays⟩)
    · rw [content?_brace, content?_brace]
      exact (shown?_alike rest).bind fun _ _ _ _ same left _ =>
        .behind left (before?_alike (by decide) same left.rest)
  · rw [content?_of_ne ne, content?_of_ne ne']
    exact shown?_alike h

end Promptry.Template
