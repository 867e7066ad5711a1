import Promptry.Proofs.Template.Insertions

/-!
What is read in a redirected template. None of the characters that are put in opens or closes a tag
or a literal, so that quotes pair up as before (`Body.unspliced`). So the redirected template is
taken apart into the same tags, with the same literals in them (`reread_search`), and no reference
is left to redirect. Main statement: `redirectAll_idempotent_erasable`.
-/

namespace Promptry.Template.DataVariables

variable {cs r r' rest w : List Char} {c q : Char}

open Tracked

/-! ### Quotes -/

theorem Body.of_append {p : List Char} (plain : '\\' ∉ p) (body : Body q (p ++ w)) :
    Body q w := by
  induction p with
  | nil => exact body
  | cons c p ih =>
    rw [List.mem_cons, not_or] at plain
    generalize spelled : c :: p ++ w = v at body
    cases body with
    | nil => cases spelled
    | plain _ _ body =>
      cases spelled
      exact ih plain.2 body
    | escaped => exact absurd (List.cons.inj spelled).1.symm plain.1

theorem quote_not_mem_redirection (quote : q = '"' ∨ q = '\'') : q ∉ redirection := by
  rcases quote with rfl | rfl <;> decide

/-- An insertion in front of a quote lies in front of it as a whole. -/
theorem Body.step (quote : q = '"' ∨ q = '\'') {s : List Char} (body : Body q w)
    (h : Renamed r (c :: (w ++ q :: s))) :
    ∃ r₀ w₀, r = c :: r₀ ∧ Body q w₀ ∧ w₀.length ≤ w.length ∧ Renamed r₀ (w₀ ++ q :: s) := by
  generalize spelled : w ++ q :: s = v at h
  cases h with
  | cons _ below => exact ⟨_, w, rfl, body, Nat.le_refl _, spelled ▸ below⟩
  | splice _ below =>
    rcases List.append_eq_append_iff.mp spelled with ⟨p, whole, same⟩ | ⟨w₀, rfl, rfl⟩
    · cases p with
      | nil => exact ⟨_, [], rfl, .nil, Nat.zero_le _, same ▸ below⟩
      | cons d p =>
        have inside : q ∈ redirection := by
          rw [whole, (List.cons.inj same).1]
          simp
        exact absurd inside (quote_not_mem_redirection quote)
    · exact ⟨_, w₀, rfl, body.of_append (by decide), by simp, below⟩

/-- What ends at a quote with insertions in it ended there without them. -/
theorem Body.unspliced (quote : q = '"' ∨ q = '\'') {inner s : List Char} (body : Body q inner)
    (h : Renamed r (inner ++ q :: s)) : ∃ inner₀ s₀, r = inner₀ ++ q :: s₀ ∧ Body q inner₀ := by
  -- a step may take an insertion off the body, so the induction is on its length
  induction len : inner.length using Nat.strongRecOn generalizing inner r with
  | ind n ih =>
    subst len
    cases body with
    | nil =>
      obtain ⟨s₀, rfl, -⟩ := h.to_cons (at_ne_quote quote).symm
      exact ⟨[], s₀, rfl, .nil⟩
    | plain other noBackslash body =>
      obtain ⟨r₀, w₀, rfl, body₀, shorter, below⟩ := body.step quote h
      obtain ⟨inner₀, s₀, rfl, body⟩ := ih _ (Nat.lt_succ_of_le shorter) body₀ below rfl
      exact ⟨_ :: inner₀, s₀, rfl, .plain other noBackslash body⟩
    | escaped noFeed body =>
      obtain ⟨behind, rfl, escaped⟩ := h.to_cons (by decide)
      obtain ⟨r₀, w₀, rfl, body₀, shorter, below⟩ := body.step quote escaped
      obtain ⟨inner₀, s₀, rfl, body⟩ :=
        ih _ (Nat.lt_succ_of_le (Nat.le_succ_of_le shorter)) body₀ below rfl
      exact ⟨'\\' :: _ :: inner₀, s₀, rfl, .escaped noFeed body⟩

/-! ### Reading a redirected tag -/

/-- Where nothing begins that is looked for, nothing begins with insertions behind it. -/
theorem missed_renamed (none : ∀ a w s, c :: r = w ++ s → ¬ LexemeAt a w s)
    (h : Renamed r r') (a : Lexeme) (w s : List Char) (same : c :: r' = w ++ s) :
    ¬ LexemeAt a w s := by
  intro here
  cases here with
  | literal is =>
    obtain ⟨q, inner, quote, body, rfl⟩ := is
    obtain ⟨rfl, rfl⟩ : c = q ∧ r' = inner ++ q :: s := by simpa using same
    obtain ⟨inner₀, s₀, rfl, body₀⟩ := body.unspliced quote h
    exact none _ _ s₀ (by simp) (.literal ⟨_, inner₀, quote, body₀, rfl⟩)
  | reference named ends =>
    obtain ⟨d, t, rfl, start⟩ := named.starts
    obtain ⟨rfl, rfl⟩ := List.cons.inj same
    have ne : d ≠ '@' := by
      rintro rfl
      cases start
    obtain ⟨r₀, rfl, -⟩ := h.to_cons ne
    exact not_start_of_missed none start

/-- What begins neither a literal nor a reference. -/
def isPlain (c : Char) : Bool := c != '"' && c != '\'' && c != '@'

theorem isPlain_of_isNameChar (h : isNameChar c = true) : isPlain c = true := by
  simp only [isPlain, Bool.and_eq_true, bne_iff_ne]
  refine ⟨⟨?_, ?_⟩, ?_⟩ <;> rintro rfl <;> cases h

theorem missed_of_isPlain (plain : isPlain c = true) (r : List Char) (a : Lexeme)
    (w s : List Char) (same : c :: r = w ++ s) : ¬ LexemeAt a w s := by
  simp only [isPlain, Bool.and_eq_true, bne_iff_ne] at plain
  obtain ⟨⟨double, single⟩, mark⟩ := plain
  intro here
  cases here with
  | literal is =>
    obtain ⟨q, inner, quote, -, rfl⟩ := is
    obtain rfl := (List.cons.inj same).1
    exact quote.elim double single
  | reference => exact mark (List.cons.inj same).1

theorem Leftmost.passed (plain : w.all isPlain = true) {lexemes : TagReading}
    (h : Leftmost LexemeAt lexemes r) : Leftmost LexemeAt (w.map .miss ++ lexemes) (w ++ r) := by
  induction w with
  | nil => exact h
  | cons c w ih =>
    obtain ⟨here, behind⟩ := Bool.and_eq_true_iff.mp (List.all_cons.symm.trans plain)
    exact .miss (missed_of_isPlain here _) (ih behind)

/-- The variable through which references are redirected, one of the language's own. -/
def rootName : List Char := "root".toList

/-- What is put in between that variable and the name. -/
def contextPath : List Char := ("." ++ contextKey ++ ".").toList

/-- What a match in a tag is read as when it is redirected: a foreign reference as one to the root,
with no other match behind it. -/
def Lexeme.redirected : Lexeme → TagReading
  | literal w => [.hit (literal w)]
  | reference name =>
      if ownVariables.contains (String.ofList name) then [.hit (reference name)]
      else .hit (reference rootName) :: (contextPath ++ name).map .miss

def redirectedTag (lexemes : TagReading) : TagReading :=
  lexemes.flatMap fun
    | .hit a => a.redirected
    | .miss c => [.miss c]

/-- The same tags, with what is redirected in them. -/
def redirectedAll (reading : Reading) : Reading :=
  reading.map fun
    | .hit lexemes => .hit (redirectedTag lexemes)
    | .miss c => .miss c

theorem isName_rootName : IsName rootName := ⟨⟨'r', _, rfl, by decide⟩, by decide⟩

theorem reread_reference {name : List Char} (named : IsName name)
    (ends : ∀ c ∈ r.head?, isNameChar c = false) {lexemes : TagReading}
    (h : Leftmost LexemeAt lexemes r) :
    Leftmost LexemeAt ((Lexeme.reference name).redirected ++ lexemes)
      ('@' :: (redirect name ++ (name ++ r))) := by
  rw [Lexeme.redirected, redirect]
  split
  · exact .hit (.reference named ends) h
  · have plain : (contextPath ++ name).all isPlain = true := by
      rw [List.all_append, show contextPath.all isPlain = true by decide, Bool.true_and]
      exact List.all_eq_true.mpr fun c mem =>
        isPlain_of_isNameChar (List.all_eq_true.mp named.chars c mem)
    have spelled : '@' :: (redirection ++ (name ++ r)) =
        ('@' :: rootName) ++ ((contextPath ++ name) ++ r) := by
      rw [show redirection = rootName ++ contextPath by decide]
      simp
    rw [spelled]
    refine .hit (.reference isName_rootName ?_) (h.passed plain)
    intro c first
    obtain rfl : '.' = c := by simpa [contextPath] using first
    decide

/-- In a redirected tag the same literals are read, and no foreign reference. -/
theorem reread_scanTag {lexemes : TagReading} (h : Leftmost LexemeAt lexemes cs) :
    Leftmost LexemeAt (redirectedTag lexemes) (scanTag cs) := by
  induction h with
  | nil => exact .nil
  | hit here below ih =>
    cases here with
    | literal is =>
      rw [scanTag_literal (literal?_of_isLiteral is _)]
      exact .hit (.literal is) ih
    | reference named ends =>
      rw [List.cons_append, scanTag_reference named ends]
      exact reread_reference named ((renamed_scanTag below).head?_eq ▸ ends) ih
  | miss none below ih =>
    rw [scanTag_missed none]
    exact .miss (missed_renamed none (renamed_scanTag below)) ih

/-! ### From tag to tag -/

/-- The first closing brace of a text is followed by another one. -/
theorem closes_iff {s : List Char} :
    (∃ inner, '\x7d' ∉ inner ∧ r = inner ++ '\x7d' :: '\x7d' :: s) ↔
      r.dropWhile (· != '\x7d') = '\x7d' :: '\x7d' :: s := by
  constructor
  · rintro ⟨inner, free, rfl⟩
    rw [List.dropWhile_append_of_pos fun c mem => by
      simpa using fun same : c = '\x7d' => free (same ▸ mem)]
    rfl
  · intro behind
    refine ⟨r.takeWhile (· != '\x7d'), fun mem => ?_, ?_⟩
    · exact absurd (List.all_eq_true.mp List.all_takeWhile _ mem) (by decide)
    · rw [← behind, List.takeWhile_append_dropWhile]

theorem renamed_behind (h : Renamed r r') :
    Renamed (r.dropWhile (· != '\x7d')) (r'.dropWhile (· != '\x7d')) :=
  h.dropWhile_over (by decide) (by decide)

/-- A tag with insertions in it is a tag. -/
theorem IsTag.renamed {s : List Char} (is : IsTag w) (h : Renamed (w ++ s) cs) :
    ∃ w' s', cs = w' ++ s' ∧ IsTag w' ∧ Renamed s s' := by
  obtain ⟨inner, free, rfl⟩ := is
  obtain ⟨r, rfl, below⟩ := h.of_append (p := ['\x7b', '\x7b']) (by decide)
  have behind := renamed_behind below
  rw [List.append_eq, List.append_assoc, List.cons_append, List.singleton_append,
    closes_iff.mp ⟨inner, free, rfl⟩] at behind
  obtain ⟨s', closes, rest⟩ := behind.of_append (p := ['\x7d', '\x7d']) (by decide)
  obtain ⟨inner', free', rfl⟩ := closes_iff.mpr closes
  exact ⟨_, s', by simp, ⟨inner', free', rfl⟩, rest⟩

/-- A tag is one without the insertions in it. -/
theorem IsTag.unrenamed {s : List Char} (is : IsTag w) (h : Renamed cs (w ++ s)) :
    ∃ w₀ s₀, cs = w₀ ++ s₀ ∧ IsTag w₀ := by
  obtain ⟨inner, free, rfl⟩ := is
  obtain ⟨r, rfl, below⟩ := h.to_append (p := ['\x7b', '\x7b']) (by decide)
  have behind := renamed_behind below
  rw [List.append_eq, List.append_assoc, List.cons_append, List.singleton_append,
    closes_iff.mp ⟨inner, free, rfl⟩] at behind
  obtain ⟨s₀, closes, -⟩ := behind.to_append (p := ['\x7d', '\x7d']) (by decide)
  obtain ⟨inner₀, free₀, rfl⟩ := closes_iff.mpr closes
  exact ⟨_, s₀, by simp, inner₀, free₀, rfl⟩

theorem isTag_scanTag {lexemes : TagReading} (here : TagAt lexemes w rest) : IsTag (scanTag w) := by
  have h : Renamed (w ++ []) (scanTag w) := by simpa using renamed_scanTag here.2
  obtain ⟨w', s', spelled, is, rest⟩ := here.1.renamed h
  rw [rest.eq_nil_iff.mpr rfl, List.append_nil] at spelled
  rwa [spelled]

/-- In a redirected template the same tags are read. -/
theorem reread_search {reading : Reading} (h : Leftmost TagAt reading cs) :
    Leftmost TagAt (redirectedAll reading) (search cs) := by
  induction h with
  | nil => exact .nil
  | hit here _ ih =>
    rw [search_tag (tag?_of_isTag here.1 _)]
    exact .hit ⟨isTag_scanTag here, reread_scanTag here.2⟩ ih
  | @miss c r reading none _ ih =>
    rw [search_of_no_tag (tag?_missed none)]
    refine .miss (fun lexemes w s same there => ?_) ih
    have renamed : Renamed (c :: r) (w ++ s) := same ▸ .cons c (redirected_search r).renamed
    obtain ⟨w₀, s₀, spelled, is⟩ := there.1.unrenamed renamed
    obtain ⟨lexemes₀, h₀⟩ := Leftmost.exists lexemeAt_unambiguous w₀
    exact none _ _ _ spelled ⟨is, h₀⟩

/-! ### Nothing is left -/

theorem inserted_mem_track {α : Type} {f : α → List Tracked} {seen : List (Seen α)} :
    inserted ∈ track f seen ↔ ∃ a, .hit a ∈ seen ∧ inserted ∈ f a := by
  simp only [track, List.mem_flatMap]
  constructor
  · rintro ⟨a | c, mem, here⟩
    · exact ⟨a, mem, here⟩
    · simp at here
  · rintro ⟨a, mem, here⟩
    exact ⟨_, mem, here⟩

theorem inserted_not_mem_redirected (lexeme : Lexeme) :
    inserted ∉ trackTag lexeme.redirected := by
  cases lexeme with
  | literal w => simp [Lexeme.redirected, trackTag, Lexeme.tracked]
  | reference name =>
    rw [Lexeme.redirected]
    split
    · next own =>
      rw [trackTag, track_hit, track_nil, List.append_nil]
      exact inserted_not_mem_reference own
    · rw [trackTag, inserted_mem_track]
      rintro ⟨a, mem, here⟩
      obtain rfl : a = .reference rootName := by simpa using mem
      exact inserted_not_mem_reference (by decide) here

theorem inserted_not_mem_again (reading : Reading) :
    inserted ∉ trackAll (redirectedAll reading) := by
  simp only [trackAll, inserted_mem_track, redirectedAll, List.mem_map]
  rintro ⟨again, ⟨lexemes | c, -, same⟩, here⟩
  · cases same
    obtain ⟨lexeme, mem, here⟩ := inserted_mem_track.mp here
    obtain ⟨seen, -, mem⟩ := List.mem_flatMap.mp mem
    cases seen with
    | hit first => exact inserted_not_mem_redirected first (inserted_mem_track.mpr ⟨_, mem, here⟩)
    | miss c => simp at mem
  · cases same

theorem search_search (cs : List Char) : search (search cs) = search cs := by
  obtain ⟨reading, h⟩ := Leftmost.exists tagAt_unambiguous cs
  have again := reread_search h
  have whole : (trackAll (redirectedAll reading)).flatMap before = search cs :=
    again.before before_tag
  rw [search_tracked again, after_eq_before (inserted_not_mem_again reading), whole]

/-- Redirecting a template again changes nothing. The template is taken apart into tags, and these
into literals and references, in exactly one way; the redirection is put in directly behind the at
signs of the references in tags whose names are not the language's own, and nowhere else, and
without it the template is what it was. The redirected template is taken apart into the same tags
with the same literals. -/
theorem redirectAll_idempotent_erasable (t : String) :
    redirectAll (redirectAll t) = redirectAll t ∧
      ∃ reading, (∀ other, Leftmost TagAt other t.toList ↔ other = reading) ∧
        (trackAll reading).flatMap before = t.toList ∧
        (trackAll reading).flatMap after = (redirectAll t).toList ∧
        (∀ front back,
          trackAll reading = front ++ inserted :: back ↔ InsertedAt reading front back) ∧
        ∀ other, Leftmost TagAt other (redirectAll t).toList ↔ other = redirectedAll reading := by
  obtain ⟨reading, unique⟩ := Leftmost.exists_unique tagAt_unambiguous t.toList
  have h : Leftmost TagAt reading t.toList := (unique reading).mpr rfl
  have again : Leftmost TagAt (redirectedAll reading) (redirectAll t).toList := by
    rw [toList_redirectAll]
    exact reread_search h
  refine ⟨?_, reading, unique, h.before before_tag, ?_, fun _ _ => inserted_iff, fun other =>
    ⟨fun read => again.unique tagAt_unambiguous read, fun same => same ▸ again⟩⟩
  · rw [← String.toList_inj, toList_redirectAll, toList_redirectAll, search_search]
  · rw [toList_redirectAll, search_tracked h]

/-- Quotes that do not pair up, a reference in a literal and one of the language's own, and a tag
that does not end. -/
example : redirectAll "\x7b\x7b \" @a '@b' @index\x7d\x7d\x7b\x7b@c\x7d" =
    "\x7b\x7b \" @root.__dotprompt_ctx.a '@b' @index\x7d\x7d\x7b\x7b@c\x7d" := by decide +kernel

end Promptry.Template.DataVariables
