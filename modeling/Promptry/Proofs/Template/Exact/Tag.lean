import Promptry.Proofs.Template.Alike.Tag
import Promptry.Proofs.Template.Exact.Content

/-!
Tags with references redirected, exactly. A tag that is no comment reaches to its closing braces,
and is read as the one with the redirected content, which drops the same blanks. Main statements:
`TagFollows.ended`, `readTag?_follows`, `rawOpenTag?_follows` and `rawCloseTag?_follows`.
-/

namespace Promptry.Template

open DataVariables

variable {cs r s : List Char} {strict : Prop} {t : Tag}

/-- A tag with its content redirected. -/
def Tag.redirect (t : Tag) : Tag := { t with content := t.content.redirect }

/-! ### Marks -/

/-- A tilde without a gap in front. -/
def tildeAt (cs : List Char) : Bool × List Char :=
  match cs with
  | '~' :: r => (true, skipGap r)
  | r => (false, r)

theorem tildeAt_of_ne (ne : ∀ r, cs ≠ '~' :: r) : tildeAt cs = (false, cs) := by
  rw [tildeAt.eq_def]
  split
  · next r => exact absurd rfl (ne r)
  · rfl

theorem tilde_follows {b : Bool} (read : tilde cs = (b, r)) :
    Follows strict (fun cs => some (tilde cs)) cs b r := by
  have read : tildeAt (skipGap cs) = (b, r) := read
  suffices inside : Follows strict (fun cs => some (tildeAt cs)) (skipGap cs) b r from
    inside.gap fun _ => rfl
  by_cases marked : ∃ s, skipGap cs = '~' :: s
  · obtain ⟨s, mark⟩ := marked
    rw [mark] at read ⊢
    obtain ⟨rfl, rfl⟩ := Prod.mk.inj read
    have gap : Follows strict (fun cs => some (true, skipGap cs)) s true (skipGap s) :=
      (follows_some true (skipGap s)).gap fun _ => rfl
    exact gap.cons (by decide) fun _ => rfl
  · have ne : ∀ s, skipGap cs ≠ '~' :: s := fun s same => marked ⟨s, same⟩
    rw [tildeAt_of_ne ne] at read
    obtain ⟨rfl, rfl⟩ := Prod.mk.inj read
    refine (follows_some false (skipGap cs)).congr fun cs' h => ?_
    rcases h.head_cases '~' (by decide) with ⟨s, -, same, -⟩ | ⟨-, ne'⟩
    · exact absurd same (ne s)
    · rw [tildeAt_of_ne ne']

theorem tilde_passed (cs : List Char) : Passed cs (tilde cs).2 := by
  refine (Passed.gap cs).trans ?_
  rw [tilde]
  split
  · next s mark =>
    rw [mark]
    exact (Passed.tail (by decide) s).trans (.gap s)
  · exact .refl _

theorem tilde_suffix {b : Bool} (read : tilde cs = (b, r)) : r <:+ cs := by
  have suffix := (tilde_passed cs).suffix
  rwa [read] at suffix

/-! ### Ends -/

/-- Two closing braces stand right in front of what is left. -/
def Closed (cs r : List Char) : Prop := '\x7d' :: '\x7d' :: r <:+ cs

theorem Closed.trans (closed : Closed s r) (front : s <:+ cs) : Closed cs r :=
  List.IsSuffix.trans closed front

theorem Closed.suffix (closed : Closed cs r) : r <:+ cs :=
  (List.suffix_append ['\x7d', '\x7d'] r).trans closed

/-- A reader of the end of a tag: a tilde, if there is one, and closing braces. -/
structure Ends (end? : Reader Bool) : Prop where
  alike : ∀ ⦃cs cs'⦄, Redirected cs cs' → ReadsAlike Eq cs cs' (end? cs) (end? cs')
  passed : ∀ ⦃cs b r⦄, end? cs = some (b, r) → Passed cs r
  closed : ∀ ⦃cs b r⦄, end? cs = some (b, r) → Closed cs r

theorem endBraces?_eq_some {braces : List Char} {b : Bool}
    (read : endBraces? braces cs = some (b, r)) : (tilde cs).2 = braces ++ r := by
  rw [endBraces?] at read
  split at read
  · next marked =>
    obtain ⟨s, same⟩ := List.isPrefixOf_iff_prefix.mp marked
    cases read
    rw [← same, List.drop_left]
  · cases read

theorem ends_braces (more : List Char) (bare : (more ++ ['\x7d', '\x7d']).all isBare = true) :
    Ends (endBraces? (more ++ ['\x7d', '\x7d'])) where
  alike _ _ h :=
    endBraces?_alike (by simp)
      (fun mem => absurd (List.all_eq_true.mp bare _ mem) (by decide)) h
  passed cs b r read := by
    have passed := tilde_passed cs
    rw [endBraces?_eq_some read] at passed
    exact passed.trans (.bare bare r)
  closed cs b r read := by
    have suffix := (tilde_passed cs).suffix
    rw [endBraces?_eq_some read, List.append_assoc] at suffix
    exact (List.suffix_append more _).trans suffix

theorem ends_endTag : Ends endTag? := by
  rw [funext endTag?_eq]
  exact ends_braces [] (by decide)

theorem ends_endRawTag : Ends endRawTag? := by
  rw [funext endRawTag?_eq]
  exact ends_braces ['\x7d', '\x7d'] (by decide)

/-- The end of a tag behind its content. -/
def ended? (end? : Reader Bool) (before : Bool) (c : Content) : Reader Tag := fun cs =>
  (end? cs).map fun (after, r) => (⟨c, before, after⟩, r)

/-! ### Tags that are followed -/

/-- A tag that is no comment is read up to its closing braces, and the redirected one is read in its
place if its paths are tidy. -/
structure TagFollows (strict : Prop) (read : Reader Tag) (cs : List Char) (t : Tag)
    (r : List Char) : Prop where
  noComment : t.content ≠ .comment
  closed : Closed cs r
  follows : Tame strict cs r (t.content.isTidy = true) → Follows strict read cs t.redirect r

namespace TagFollows

variable {read read' : Reader Tag} {end? : Reader Bool} {before : Bool}

theorem of_eq (same : ∀ cs, read' cs = read cs) (told : TagFollows strict read cs t r) :
    TagFollows strict read' cs t r :=
  ⟨told.noComment, told.closed, fun tame => (told.follows tame).of_eq same⟩

theorem behind {p : List Char} (bare : p.all isBare = true)
    (same : ∀ s', read' (p ++ s') = read s') (told : TagFollows strict read s t r) :
    TagFollows strict read' (p ++ s) t r where
  noComment := told.noComment
  closed := told.closed.trans (List.suffix_append p s)
  follows tame :=
    have inside := (tame.split (List.suffix_append p s) told.closed.suffix).2
    (told.follows inside).behind bare fun s' _ => same s'

theorem gap (told : TagFollows strict read (skipGap cs) t r) :
    TagFollows strict (fun cs => read (skipGap cs)) cs t r where
  noComment := told.noComment
  closed := told.closed.trans (skipGap_suffix cs)
  follows tame :=
    have inside := (tame.split (skipGap_suffix cs) told.closed.suffix).2
    (told.follows inside).gap fun _ => rfl

theorem tilded (next : Bool → Reader Tag)
    (told : TagFollows strict (next (tilde cs).1) (tilde cs).2 t r) :
    TagFollows strict (fun cs => next (tilde cs).1 (tilde cs).2) cs t r where
  noComment := told.noComment
  closed := told.closed.trans (tilde_suffix rfl)
  follows tame := by
    have inside := (tame.split (tilde_suffix rfl) told.closed.suffix).2
    have marks : Follows strict (fun cs => some (tilde cs)) cs (tilde cs).1 (tilde cs).2 :=
      tilde_follows rfl
    have both : Follows strict (fun cs => (some (tilde cs)).bind fun (before, r) => next before r)
        cs t.redirect r := marks.bind (told.follows inside)
    exact both

theorem orElse_left (told : TagFollows strict read cs t r) :
    TagFollows strict (fun cs => (read cs).orElse fun _ => read' cs) cs t r :=
  ⟨told.noComment, told.closed, fun tame => (told.follows tame).orElse_left⟩

theorem orElse_right {alike : Tag × List Char → Tag × List Char → Prop}
    (reads : ∀ ⦃cs'⦄, Redirected cs cs' → TakesAlike alike cs cs' (read cs) (read cs'))
    (none : read cs = none) (told : TagFollows strict read' cs t r) :
    TagFollows strict (fun cs => (read cs).orElse fun _ => read' cs) cs t r :=
  ⟨told.noComment, told.closed, fun tame => .orElse_right reads none (told.follows tame)⟩

/-- The end of a tag alone. -/
theorem last {c : Content} (ends : Ends end?) (noComment : c ≠ .comment)
    (closing : ended? end? before c cs = some (t, r)) :
    TagFollows strict (ended? end? before c.redirect) cs t r := by
  obtain ⟨⟨after, s⟩, found, same⟩ := Option.map_eq_some_iff.mp closing
  cases same
  exact ⟨noComment, ends.closed found, fun _ =>
    (Follows.of_passed (fun _ h => ends.alike h) found (ends.passed found)).map fun _ => rfl⟩

/-- A content and the end of its tag. -/
theorem ended {α : Type} {first : Reader α} {a a' : α} (content : α → Content) (ends : Ends end?)
    (suffix : s <:+ cs) (noComment : content a ≠ .comment)
    (redirected : (content a).redirect = content a')
    (follows : Tame strict cs s ((content a).isTidy = true) → Follows strict first cs a' s)
    (closing : ended? end? before (content a) s = some (t, r)) :
    TagFollows strict (fun cs => (first cs).bind fun (a, r) => ended? end? before (content a) r)
      cs t r := by
  have told : TagFollows strict _ s t r := .last ends noComment closing
  have same : t.content = content a := by
    obtain ⟨⟨after, s⟩, -, same⟩ := Option.map_eq_some_iff.mp closing
    cases same
    rfl
  refine ⟨told.noComment, told.closed.trans suffix, fun tame => ?_⟩
  obtain ⟨here, below⟩ := tame.split suffix told.closed.suffix
  rw [same] at here
  have behind := told.follows below
  rw [redirected] at behind
  exact (follows here).bind behind

end TagFollows

/-! ### Tags between two braces -/

theorem branch?_eq (before : Bool) (cs : List Char) : branch? before cs =
    (ended? endTag? before .otherwise cs).orElse fun _ =>
      (head? cs).bind fun (h, r) => ended? endTag? before (.chain h) r := by
  rw [branch?, ended?]
  cases endTag? cs with
  | some found => rfl
  | none =>
    exact congrArg (Option.bind (head? cs)) (funext fun p => Option.map_eq_bind.symm)

theorem plainTag?_eq (before : Bool) (cs : List Char) : plainTag? before cs =
    (content? cs).bind fun (c, r) => ended? endTag? before c r := by
  exact congrArg (Option.bind (content? cs)) (funext fun p => Option.map_eq_bind.symm)

theorem branch?_follows {before : Bool} (read : branch? before cs = some (t, r)) :
    TagFollows strict (branch? before) cs t r := by
  rw [branch?_eq] at read
  refine .of_eq (branch?_eq before) ?_
  cases last : ended? endTag? before .otherwise cs with
  | some found =>
    rw [last] at read
    cases read
    exact (TagFollows.last (c := .otherwise) ends_endTag (by simp) last).orElse_left
  | none =>
    rw [last] at read
    obtain ⟨⟨h, s⟩, head, closing⟩ := Option.bind_eq_some_iff.mp read
    have refused : ∀ ⦃cs'⦄, Redirected cs cs' → ReadsAlike (fun _ _ => True) cs cs'
        (ended? endTag? before .otherwise cs) (ended? endTag? before .otherwise cs') := fun _ h =>
      (endTag?_alike h).map fun _ _ _ _ _ => ⟨rfl, rfl, trivial⟩
    exact .orElse_right refused last (.ended .chain ends_endTag
      ((head?_alike (.refl cs)).suffix head) (by simp) rfl (head?_follows head) closing)

theorem branchTag?_follows {before : Bool} (read : branchTag? before cs = some (t, r)) :
    TagFollows strict (branchTag? before) cs t r := by
  by_cases word : ∃ s, cs = ['e', 'l', 's', 'e'] ++ s
  · obtain ⟨s, rfl⟩ := word
    have read : branch? before s = some (t, r) := read
    exact (branch?_follows read).behind (by decide) fun _ => rfl
  · by_cases mark : ∃ s, cs = ['^'] ++ s
    · obtain ⟨s, rfl⟩ := mark
      have read : branch? before s = some (t, r) := read
      exact (branch?_follows read).behind (by decide) fun _ => rfl
    · rw [branchTag?_of_ne before (fun s same => word ⟨s, same⟩)
        fun s same => mark ⟨s, same⟩] at read
      cases read

/-- What is read and then put into a content that is no comment. -/
theorem ne_comment_of_map {α : Type} {o : Option (α × List Char)} {c : Content}
    (content : α → Content) (read : o.map (fun p => (content p.1, p.2)) = some (c, r))
    (noComment : ∀ a, content a ≠ .comment) : c ≠ .comment := by
  obtain ⟨p, -, same⟩ := Option.map_eq_some_iff.mp read
  exact (Prod.mk.inj same).1 ▸ noComment p.1

theorem shown?_noComment {c : Content} (read : shown? cs = some (c, r)) : c ≠ .comment := by
  have read : ((shownCall? (skipGap cs)).orElse fun _ =>
    (reference? (skipGap cs)).map fun p => (Content.value p.1, p.2)) = some (c, r) := read
  rcases orElse_eq_some read with call | value
  · rw [shownCall?_eq] at call
    exact ne_comment_of_map (fun a : String × Arguments => .call ⟨a.1, a.2, []⟩) call
      fun _ => by simp
  · exact ne_comment_of_map .value value fun _ => by simp

theorem content?_noComment {c : Content} (read : content? cs = some (c, r)) : c ≠ .comment := by
  by_cases marked : ∃ c ∈ contentMarks, ∃ s, cs = c :: s
  · obtain ⟨mark, mem, s, rfl⟩ := marked
    simp only [contentMarks, List.mem_cons, List.not_mem_nil, or_false] at mem
    rcases mem with rfl | rfl | rfl | rfl | rfl | rfl
    · have read : opening? s = some (c, r) := read
      rw [opening?] at read
      split at read
      · exact ne_comment_of_map .decoratorOpen read fun _ => by simp
      · exact ne_comment_of_map (fun a : Expr × Arguments => .inclusionOpen a.1 a.2) read
          fun _ => by simp
      · exact ne_comment_of_map .blockOpen read fun _ => by simp
    · exact ne_comment_of_map .close read fun _ => by simp
    · exact ne_comment_of_map .decorator read fun _ => by simp
    · exact ne_comment_of_map (fun a : Expr × Arguments => .inclusion a.1 a.2) read fun _ => by simp
    · exact ne_comment_of_map .value read fun _ => by simp
    · rw [content?_brace] at read
      obtain ⟨p, shown, closing⟩ := Option.bind_eq_some_iff.mp read
      obtain ⟨rfl, -⟩ := before?_eq_some closing
      exact shown?_noComment shown
  · rw [content?_of_ne fun c mem s same => marked ⟨c, mem, s, same⟩] at read
    exact shown?_noComment read

theorem plainTag?_follows {before : Bool} (read : plainTag? before cs = some (t, r)) :
    TagFollows strict (plainTag? before) cs t r := by
  rw [plainTag?_eq] at read
  obtain ⟨⟨c, s⟩, content, closing⟩ := Option.bind_eq_some_iff.mp read
  exact .of_eq (plainTag?_eq before) (.ended id ends_endTag
    ((content?_alike (.refl cs)).suffix content) (content?_noComment content) rfl
    (content?_follows content) closing)

/-- A tag between two braces, with the tilde in front. -/
def tildedTag? : Reader Tag := fun cs =>
  (branchTag? (tilde cs).1 (tilde cs).2).orElse fun _ => plainTag? (tilde cs).1 (tilde cs).2

theorem readTag?_braces (s : List Char) : readTag? (['\x7b', '\x7b'] ++ s) =
    (tildedTag? s).orElse fun _ => otherTag? s := by
  have either : readTag? (['\x7b', '\x7b'] ++ s) =
      (branchTag? (tilde s).1 (tilde s).2).orElse fun _ =>
        (plainTag? (tilde s).1 (tilde s).2).orElse fun _ => otherTag? s := rfl
  rw [either, tildedTag?]
  cases branchTag? (tilde s).1 (tilde s).2 <;> rfl

theorem tildedTag?_alike {cs' : List Char} (h : Redirected cs cs') :
    ReadsAlike TagAlike cs cs' (tildedTag? cs) (tildedTag? cs') := by
  obtain ⟨-, left⟩ := tilde_leaves h
  exact .behind left ((branchTag?_alike _ _ left.rest).orElse (plainTag?_alike _ _ left.rest))

theorem tildedTag?_follows (read : tildedTag? cs = some (t, r)) :
    TagFollows strict tildedTag? cs t r := by
  rw [tildedTag?] at read
  refine .tilded (fun before cs => (branchTag? before cs).orElse fun _ => plainTag? before cs) ?_
  cases branch : branchTag? (tilde cs).1 (tilde cs).2 with
  | some found =>
    rw [branch] at read
    cases read
    exact (branchTag?_follows branch).orElse_left
  | none =>
    rw [branch] at read
    exact .orElse_right (fun _ h => branchTag?_alike _ _ h) branch (plainTag?_follows read)

/-! ### Tags with more braces -/

theorem tripleTag?_eq_ended (cs : List Char) : tripleTag? cs =
    (shown? (tilde cs).2).bind fun (c, r) =>
      ended? (endBraces? ['\x7d', '\x7d', '\x7d']) (tilde cs).1 c r := tripleTag?_eq cs

theorem tripleTag?_follows (read : tripleTag? cs = some (t, r)) :
    TagFollows strict tripleTag? cs t r := by
  rw [tripleTag?_eq_ended] at read
  obtain ⟨⟨c, s⟩, content, closing⟩ := Option.bind_eq_some_iff.mp read
  refine .of_eq tripleTag?_eq_ended (.tilded (fun before cs =>
    (shown? cs).bind fun (c, r) => ended? (endBraces? ['\x7d', '\x7d', '\x7d']) before c r) ?_)
  exact .ended id (ends_braces ['\x7d'] (by decide))
    ((shown?_alike (.refl _)).suffix content) (shown?_noComment content) rfl
    (shown?_follows content) closing

theorem rawOpenTag?_braces (s : List Char) :
    rawOpenTag? (['\x7b', '\x7b', '\x7b', '\x7b'] ++ s) =
      (head? (tilde s).2).bind fun (h, r) => ended? endRawTag? (tilde s).1 (.blockOpen h) r := by
  exact congrArg (Option.bind (head? (tilde s).2)) (funext fun p => Option.map_eq_bind.symm)

/-- The opening tag of a block whose inside is text. -/
theorem rawOpenTag?_follows (read : rawOpenTag? cs = some (t, r)) :
    TagFollows strict rawOpenTag? cs t r := by
  by_cases opens : ∃ s, cs = ['\x7b', '\x7b', '\x7b', '\x7b'] ++ s
  · obtain ⟨s, rfl⟩ := opens
    rw [rawOpenTag?_braces] at read
    obtain ⟨⟨h, u⟩, head, closing⟩ := Option.bind_eq_some_iff.mp read
    refine .behind (by decide) rawOpenTag?_braces (.tilded (fun before cs =>
      (head? cs).bind fun (h, r) => ended? endRawTag? before (.blockOpen h) r) ?_)
    exact .ended .blockOpen ends_endRawTag ((head?_alike (.refl _)).suffix head) (by simp)
      rfl (head?_follows head) closing
  · rw [rawOpenTag?_of_ne fun s same => opens ⟨s, same⟩] at read
    cases read

theorem rawClosing?_eq (before : Bool) (cs : List Char) : rawClosing? before cs =
    (word? cs).bind fun (name, r) => ended? endRawTag? before (.close name) r := by
  exact congrArg (Option.bind (word? cs)) (funext fun p => Option.map_eq_bind.symm)

theorem rawClosing?_follows {before : Bool} (read : rawClosing? before cs = some (t, r)) :
    TagFollows strict (rawClosing? before) cs t r := by
  rw [rawClosing?_eq] at read
  obtain ⟨⟨name, s⟩, word, closing⟩ := Option.bind_eq_some_iff.mp read
  exact .of_eq (rawClosing?_eq before) (.ended .close ends_endRawTag (word?_suffix word)
    (by simp) rfl (fun _ => word?_follows word) closing)

/-- The closing tag of a block whose inside is text. -/
theorem rawCloseTag?_follows (read : rawCloseTag? cs = some (t, r)) :
    TagFollows strict rawCloseTag? cs t r := by
  by_cases opens : ∃ s, cs = ['\x7b', '\x7b', '\x7b', '\x7b'] ++ s
  · obtain ⟨s, rfl⟩ := opens
    rw [rawCloseTag?_braces] at read
    refine .behind (by decide) rawCloseTag?_braces (.tilded (fun before cs =>
      (afterSlash? cs).bind (rawClosing? before)) ?_)
    by_cases slash : ∃ u, (tilde s).2 = ['/'] ++ u
    · obtain ⟨u, slash⟩ := slash
      rw [slash] at read ⊢
      have read : rawClosing? (tilde s).1 (skipGap u) = some (t, r) := read
      exact (rawClosing?_follows read).gap.behind (by decide) fun _ => rfl
    · rw [afterSlash?_of_ne fun u same => slash ⟨u, same⟩] at read
      cases read
  · rw [rawCloseTag?_of_ne fun s same => opens ⟨s, same⟩] at read
    cases read

/-! ### Comments -/

theorem behind?_suffix {mark : List Char} (found : behind? mark cs = some r) :
    mark ++ r <:+ cs := by
  fun_induction behind? mark cs with
  | case1 empty =>
    cases found
    rw [List.isEmpty_iff.mp empty]
    exact List.suffix_rfl
  | case2 => cases found
  | case3 c cs here =>
    cases found
    obtain ⟨s, same⟩ := List.isPrefixOf_iff_prefix.mp here
    refine ⟨[], ?_⟩
    rw [List.nil_append, ← same, List.drop_left]
  | case4 c cs _ ih => exact (ih found).trans (List.suffix_cons c cs)

theorem comment?_closed (found : comment? cs = some r) : Closed cs r := by
  have either : ((longComment? cs).orElse fun _ => behind? ['\x7d', '\x7d'] cs) = some r := found
  rcases orElse_eq_some either with long | short
  · rw [longComment?] at long
    split at long
    · next s mark =>
      have inside : s <:+ cs := by
        refine List.IsSuffix.trans ?_ (skipGap_suffix cs)
        rw [mark]
        exact List.suffix_append ['-', '-'] s
      have found : ['-', '-', '\x7d', '\x7d'] ++ r <:+ s := behind?_suffix long
      exact ((List.suffix_append ['-', '-'] _).trans found).trans inside
    · cases long
  · exact behind?_suffix short

/-- What is neither between two braces stands between three, or is a comment. -/
theorem otherTag?_follows (read : otherTag? cs = some (t, r)) :
    t = ⟨.comment, false, false⟩ ∧ Closed cs r ∨ ∀ strict, TagFollows strict otherTag? cs t r := by
  by_cases brace : ∃ s, cs = ['\x7b'] ++ s
  · obtain ⟨s, rfl⟩ := brace
    have read : tripleTag? s = some (t, r) := read
    exact .inr fun strict => (tripleTag?_follows read).behind (by decide) fun _ => rfl
  · have open' : ∀ s, cs ≠ '\x7b' :: s := fun s same => brace ⟨s, same⟩
    by_cases mark : ∃ s, skipGap cs = '!' :: s
    · obtain ⟨s, mark⟩ := mark
      rw [otherTag?_of_mark open' mark] at read
      obtain ⟨rest, found, same⟩ := Option.map_eq_some_iff.mp read
      cases same
      have inside : s <:+ cs := (List.suffix_cons _ s).trans (mark ▸ skipGap_suffix cs)
      exact .inl ⟨rfl, (comment?_closed found).trans inside⟩
    · rw [otherTag?_of_ne open' fun s same => mark ⟨s, same⟩] at read
      cases read

/-- A tag is a plain comment, or it is read as the redirected one. -/
theorem readTag?_follows (read : readTag? cs = some (t, r)) :
    t = ⟨.comment, false, false⟩ ∧ Closed cs r ∨ ∀ strict, TagFollows strict readTag? cs t r := by
  by_cases opens : ∃ s, cs = ['\x7b', '\x7b'] ++ s
  · obtain ⟨s, rfl⟩ := opens
    rw [readTag?_braces] at read
    have between {strict : Prop}
        (told : TagFollows strict (fun s => (tildedTag? s).orElse fun _ => otherTag? s) s t r) :
        TagFollows strict readTag? (['\x7b', '\x7b'] ++ s) t r :=
      told.behind (by decide) readTag?_braces
    cases tilded : tildedTag? s with
    | some found =>
      rw [tilded] at read
      cases read
      exact .inr fun strict => between (tildedTag?_follows tilded).orElse_left
    | none =>
      rw [tilded] at read
      rcases otherTag?_follows read with ⟨comment, closed⟩ | told
      · exact .inl ⟨comment, closed.trans (List.suffix_append _ s)⟩
      · exact .inr fun strict =>
          between (.orElse_right (fun _ h => tildedTag?_alike h) tilded (told strict))
  · rw [readTag?_of_ne fun s same => opens ⟨s, same⟩] at read
    cases read

end Promptry.Template
