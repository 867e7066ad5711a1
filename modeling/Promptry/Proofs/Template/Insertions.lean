import Promptry.Proofs.Template.Patterns

/-!
Where redirecting puts something in. What a template comes to is told with the insertions marked, so
that it can be read with them and without them. Main statements: `search_tracked`, that with them it
is the redirected template, `Leftmost.before`, that without them it is the template, and
`inserted_iff`, that they stand behind the at signs of foreign references in tags and nowhere else.
-/

namespace Promptry.Template.DataVariables

variable {cs r rest w : List Char} {c : Char}

/-! ### Tracked insertions -/

/-- A character that stays, or the redirection put in. -/
inductive Tracked where
  | kept (c : Char)
  | inserted

namespace Tracked

/-- The text without what was put in. -/
def before : Tracked → List Char
  | kept c => [c]
  | inserted => []

/-- The text with what was put in. -/
def after : Tracked → List Char
  | kept c => [c]
  | inserted => redirection

@[simp] theorem flatMap_before_kept (w : List Char) : (w.map kept).flatMap before = w := by
  induction w with
  | nil => rfl
  | cons c w ih => simp [before, ih]

@[simp] theorem flatMap_after_kept (w : List Char) : (w.map kept).flatMap after = w := by
  induction w with
  | nil => rfl
  | cons c w ih => simp [after, ih]

theorem after_eq_before {tracked : List Tracked} (none : inserted ∉ tracked) :
    tracked.flatMap after = tracked.flatMap before := by
  induction tracked with
  | nil => rfl
  | cons t tracked ih =>
    rw [List.mem_cons, not_or] at none
    rw [List.flatMap_cons, List.flatMap_cons, ih none.2]
    cases t with
    | kept c => rfl
    | inserted => exact absurd rfl none.1

end Tracked

open Tracked

/-- What a search comes upon, with the insertions in each match; what it misses stays. -/
def track {α : Type} (f : α → List Tracked) (seen : List (Seen α)) : List Tracked :=
  seen.flatMap fun
    | .hit a => f a
    | .miss c => [kept c]

/-- A literal stays. The redirection is put in directly behind the at sign of a reference, unless
its name is one of the language's own. -/
def Lexeme.tracked : Lexeme → List Tracked
  | literal w => w.map kept
  | reference name =>
      kept '@' :: ((if ownVariables.contains (String.ofList name) then [] else [inserted]) ++
        name.map kept)

/-- What a tag comes to. -/
def trackTag : TagReading → List Tracked := track Lexeme.tracked

/-- What a template comes to. -/
def trackAll : Reading → List Tracked := track trackTag

section Track

variable {α : Type} {pattern : α → List Char → List Char → Prop} {f : α → List Tracked}
  {seen : List (Seen α)}

@[simp] theorem track_nil : track f [] = [] := rfl

@[simp] theorem track_hit (a : α) (seen : List (Seen α)) :
    track f (.hit a :: seen) = f a ++ track f seen := rfl

@[simp] theorem track_miss (c : Char) (seen : List (Seen α)) :
    track f (.miss c :: seen) = kept c :: track f seen := rfl

theorem track_append (seen seen' : List (Seen α)) :
    track f (seen ++ seen') = track f seen ++ track f seen' := List.flatMap_append

/-- Without the insertions the text is as it was. -/
theorem Leftmost.before (spelled : ∀ {a w r}, pattern a w r → (f a).flatMap Tracked.before = w)
    (h : Leftmost pattern seen cs) : (track f seen).flatMap Tracked.before = cs := by
  induction h with
  | nil => rfl
  | hit here _ ih => rw [track_hit, List.flatMap_append, spelled here, ih]
  | miss _ _ ih => rw [track_miss, List.flatMap_cons, ih, Tracked.before, List.singleton_append]

end Track

theorem before_lexeme {lexeme : Lexeme} (here : LexemeAt lexeme w r) :
    lexeme.tracked.flatMap before = w := by
  cases here with
  | literal => rw [Lexeme.tracked, flatMap_before_kept]
  | @reference name =>
    rw [Lexeme.tracked, List.flatMap_cons, List.flatMap_append, flatMap_before_kept]
    split <;> rfl

theorem before_tag {lexemes : TagReading} (here : TagAt lexemes w r) :
    (trackTag lexemes).flatMap before = w :=
  here.2.before before_lexeme

theorem after_reference (name : List Char) :
    (Lexeme.reference name).tracked.flatMap after = '@' :: (redirect name ++ name) := by
  rw [Lexeme.tracked, redirect, List.flatMap_cons, List.flatMap_append, flatMap_after_kept]
  split <;> rfl

/-! ### Inside a tag -/

theorem scanTag_reference {name : List Char} (named : IsName name)
    (ends : ∀ c ∈ r.head?, isNameChar c = false) :
    scanTag ('@' :: (name ++ r)) = '@' :: (redirect name ++ (name ++ scanTag r)) := by
  obtain ⟨d, s, rfl, start⟩ := named.starts
  have whole := takeWhile_name named.chars ends
  have passed := scanTag_append_of_isNameChar named.chars r
  rw [List.cons_append] at whole passed ⊢
  rw [scanTag_name start, whole, passed, List.cons_append]

/-- Where nothing that is looked for begins, a character stays. -/
theorem scanTag_missed (none : ∀ a w s, c :: r = w ++ s → ¬ LexemeAt a w s) :
    scanTag (c :: r) = c :: scanTag r := by
  have noLiteral : literal? (c :: r) = .none := by
    cases found : literal? (c :: r) with
    | none => rfl
    | some p =>
      obtain ⟨is, spelled⟩ := literal?_eq_some_iff.mp found
      exact absurd (.literal is) (none _ _ _ spelled)
  by_cases mark : c = '@'
  · subst mark
    refine scanTag_of_not_foreign fun foreign => ?_
    obtain ⟨d, s, rfl, start⟩ := foreign.starts
    exact not_start_of_missed none start
  · rw [scanTag_cons, tagStep_of_ne noLiteral mark, List.singleton_append]

theorem scanTag_tracked {lexemes : TagReading} (h : Leftmost LexemeAt lexemes cs) :
    scanTag cs = (trackTag lexemes).flatMap after := by
  induction h with
  | nil => rfl
  | hit here _ ih =>
    rw [trackTag, track_hit, List.flatMap_append, ← trackTag, ← ih]
    cases here with
    | literal is => rw [scanTag_literal (literal?_of_isLiteral is _), Lexeme.tracked,
        flatMap_after_kept]
    | reference named ends =>
      rw [List.cons_append, scanTag_reference named ends, after_reference]
      simp
  | miss none _ ih =>
    rw [scanTag_missed none, ih, trackTag, track_miss, List.flatMap_cons, after,
      List.singleton_append]

theorem renamed_scanTag {lexemes : TagReading} (h : Leftmost LexemeAt lexemes cs) :
    Renamed cs (scanTag cs) := by
  induction h with
  | nil => exact .nil
  | hit here _ ih =>
    cases here with
    | literal is =>
      rw [scanTag_literal (literal?_of_isLiteral is _)]
      exact ih.prepend _
    | reference named ends =>
      rw [List.cons_append, scanTag_reference named ends, redirect]
      split
      · exact .cons '@' (ih.prepend _)
      · exact .splice trivial (ih.prepend _)
  | miss none _ ih =>
    rw [scanTag_missed none]
    exact .cons _ ih

/-! ### From tag to tag -/

/-- At a character that is missed no tag is read. -/
theorem tag?_missed (none : ∀ a w s, c :: r = w ++ s → ¬ TagAt a w s) :
    tag? (c :: r) = .none := by
  cases found : tag? (c :: r) with
  | none => rfl
  | some p =>
    obtain ⟨is, spelled⟩ := tag?_eq_some_iff.mp found
    obtain ⟨lexemes, h⟩ := Leftmost.exists lexemeAt_unambiguous p.1
    exact absurd ⟨is, h⟩ (none lexemes _ _ spelled)

theorem search_tracked {reading : Reading} (h : Leftmost TagAt reading cs) :
    search cs = (trackAll reading).flatMap after := by
  induction h with
  | nil => rfl
  | hit here _ ih =>
    rw [search_tag (tag?_of_isTag here.1 _), scanTag_tracked here.2, ih, trackAll, track_hit,
      List.flatMap_append]
  | miss none _ ih =>
    rw [search_of_no_tag (tag?_missed none), ih, trackAll, track_miss, List.flatMap_cons, after,
      List.singleton_append]

/-! ### The places -/

/-- The place of an insertion is in one of the matches. -/
theorem exists_of_track {α : Type} {f : α → List Tracked} {seen : List (Seen α)}
    {front back : List Tracked} (h : track f seen = front ++ inserted :: back) :
    ∃ earlier a later inner behind, seen = earlier ++ .hit a :: later ∧
      f a = inner ++ inserted :: behind ∧ front = track f earlier ++ inner ∧
      back = behind ++ track f later := by
  induction seen generalizing front with
  | nil => simp at h
  | cons s seen ih =>
    have further {p : List Tracked} (below : track f seen = p ++ inserted :: back)
        (whole : front = track f [s] ++ p) :
        ∃ earlier a later inner behind, s :: seen = earlier ++ .hit a :: later ∧
          f a = inner ++ inserted :: behind ∧ front = track f earlier ++ inner ∧
          back = behind ++ track f later := by
      obtain ⟨earlier, a, later, inner, behind, rfl, place, rfl, rfl⟩ := ih below
      refine ⟨s :: earlier, a, later, inner, behind, rfl, place, ?_, rfl⟩
      rw [whole, ← List.append_assoc, ← track_append, List.singleton_append]
    cases s with
    | hit a =>
      rw [track_hit] at h
      rcases List.append_eq_append_iff.mp h with ⟨p, whole, below⟩ | ⟨p, here, below⟩
      · exact further below (by simpa using whole)
      · cases p with
        | nil => exact further (p := []) below.symm (by simpa using here.symm)
        | cons t p =>
          obtain ⟨rfl, rfl⟩ := List.cons.inj below
          exact ⟨[], a, seen, front, p, rfl, here, rfl, rfl⟩
    | miss c =>
      cases front with
      | nil => simp at h
      | cons t front =>
        obtain ⟨rfl, below⟩ := List.cons.inj h
        exact further below rfl

/-- The redirection is in a tag, directly behind the at sign of a reference, and the name of the
reference is none of the language's own. -/
inductive InsertedAt : Reading → List Tracked → List Tracked → Prop where
  | reference (earlier later : Reading) (before behind : TagReading) {name : List Char} :
      ownVariables.contains (String.ofList name) = false →
      InsertedAt (earlier ++ .hit (before ++ .hit (.reference name) :: behind) :: later)
        (trackAll earlier ++ (trackTag before ++ [kept '@']))
        (name.map kept ++ trackTag behind ++ trackAll later)

theorem tracked_foreign {name : List Char}
    (foreign : ownVariables.contains (String.ofList name) = false) :
    (Lexeme.reference name).tracked = [kept '@'] ++ inserted :: name.map kept := by
  rw [Lexeme.tracked, foreign]
  rfl

theorem inserted_not_mem_kept (w : List Char) : inserted ∉ w.map kept := by
  simp

theorem inserted_not_mem_reference {name : List Char}
    (own : ownVariables.contains (String.ofList name) = true) :
    inserted ∉ (Lexeme.reference name).tracked := by
  rw [Lexeme.tracked, if_pos own]
  simp

/-- The place of the insertion in a lexeme. -/
theorem place_in_lexeme {lexeme : Lexeme} {inner behind : List Tracked}
    (place : lexeme.tracked = inner ++ inserted :: behind) :
    ∃ name, lexeme = .reference name ∧ ownVariables.contains (String.ofList name) = false ∧
      inner = [kept '@'] ∧ behind = name.map kept := by
  have mem : inserted ∈ lexeme.tracked := place ▸ by simp
  cases lexeme with
  | literal w => exact absurd mem (inserted_not_mem_kept w)
  | reference name =>
    cases own : ownVariables.contains (String.ofList name) with
    | true => exact absurd mem (inserted_not_mem_reference own)
    | false =>
      rw [tracked_foreign own, List.singleton_append, List.cons_eq_append_iff] at place
      rcases place with ⟨-, same⟩ | ⟨inner, rfl, place⟩
      · cases same
      · rcases List.cons_eq_append_iff.mp place with ⟨rfl, same⟩ | ⟨inner, rfl, later⟩
        · cases same
          exact ⟨name, rfl, own, rfl, rfl⟩
        · exact absurd (later ▸ by simp) (inserted_not_mem_kept name)

/-- The redirection is put in at its places and nowhere else. -/
theorem inserted_iff {reading : Reading} {front back : List Tracked} :
    trackAll reading = front ++ inserted :: back ↔ InsertedAt reading front back := by
  constructor
  · intro h
    obtain ⟨earlier, lexemes, later, inner, behind, rfl, inTag, rfl, rfl⟩ := exists_of_track h
    obtain ⟨before, lexeme, after, inner, behind, rfl, inLexeme, rfl, rfl⟩ := exists_of_track inTag
    obtain ⟨name, rfl, foreign, rfl, rfl⟩ := place_in_lexeme inLexeme
    exact .reference earlier later before after foreign
  · rintro ⟨earlier, later, before, behind, foreign⟩
    simp [trackAll, trackTag, track_append, tracked_foreign foreign]

end Promptry.Template.DataVariables
