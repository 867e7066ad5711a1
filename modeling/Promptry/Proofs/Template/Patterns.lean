import Promptry.Proofs.Template.Search

/-!
The patterns that redirecting looks for, apart from how it looks for them: tags, and in a tag quoted
literals and references. A search takes a text apart into the leftmost matches of its pattern and
the characters between them, in exactly one way (`Leftmost.exists_unique`). Main statements:
`lexemeAt_unambiguous` and `tagAt_unambiguous`, that no two matches begin at one place.
-/

namespace Promptry.Template.DataVariables

variable {cs r rest w : List Char} {c q : Char}

/-! ### Leftmost matches -/

/-- What a search comes upon in a text: a match, or a character at which none begins. -/
inductive Seen (α : Type) where
  | hit (a : α)
  | miss (c : Char)

section Leftmost

variable {α : Type} {pattern : α → List Char → List Char → Prop}

/-- The matches of a pattern from left to right, none of which begins inside of another or at a
character that is missed. By `pattern a w r`, `w` is the match `a` if `r` follows it. -/
inductive Leftmost (pattern : α → List Char → List Char → Prop) :
    List (Seen α) → List Char → Prop where
  | nil : Leftmost pattern [] []
  | hit {a : α} {w r : List Char} {seen : List (Seen α)} : pattern a w r →
      Leftmost pattern seen r → Leftmost pattern (.hit a :: seen) (w ++ r)
  | miss {c : Char} {r : List Char} {seen : List (Seen α)} :
      (∀ a w s, c :: r = w ++ s → ¬ pattern a w s) →
      Leftmost pattern seen r → Leftmost pattern (.miss c :: seen) (c :: r)

/-- Matches are not empty, and at one place there is at most one. -/
structure Unambiguous (pattern : α → List Char → List Char → Prop) : Prop where
  nonempty : ∀ {a w r}, pattern a w r → w ≠ []
  unique : ∀ {a b w v r s}, pattern a w r → pattern b v s → w ++ r = v ++ s → a = b ∧ w = v

theorem Leftmost.unique (unambiguous : Unambiguous pattern) {seen seen' : List (Seen α)}
    (h : Leftmost pattern seen cs) (h' : Leftmost pattern seen' cs) : seen' = seen := by
  induction h generalizing seen' with
  | nil =>
    generalize same : ([] : List Char) = ds at h'
    cases h' with
    | nil => rfl
    | hit here _ =>
      exact absurd (List.append_eq_nil_iff.mp same.symm).1 (unambiguous.nonempty here)
    | miss => cases same
  | @hit a w r seen here _ ih =>
    generalize same : w ++ r = ds at h'
    cases h' with
    | nil => exact absurd (List.append_eq_nil_iff.mp same).1 (unambiguous.nonempty here)
    | hit there below =>
      obtain ⟨rfl, rfl⟩ := unambiguous.unique here there same
      obtain rfl := List.append_cancel_left same
      rw [ih below]
    | miss none => exact absurd here (none _ _ _ same.symm)
  | @miss c r seen none _ ih =>
    generalize same : c :: r = ds at h'
    cases h' with
    | nil => cases same
    | hit there _ => exact absurd there (none _ _ _ same)
    | miss _ below =>
      cases same
      rw [ih below]

theorem Leftmost.exists (unambiguous : Unambiguous pattern) (cs : List Char) :
    ∃ seen, Leftmost pattern seen cs := by
  induction h : cs.length using Nat.strongRecOn generalizing cs with
  | ind n ih =>
    subst h
    by_cases begins : ∃ a w r, cs = w ++ r ∧ pattern a w r
    · obtain ⟨a, w, r, rfl, here⟩ := begins
      have some := List.length_pos_iff.mpr (unambiguous.nonempty here)
      obtain ⟨seen, below⟩ := ih r.length (by rw [List.length_append]; omega) r rfl
      exact ⟨_, .hit here below⟩
    · cases cs with
      | nil => exact ⟨[], .nil⟩
      | cons c r =>
        obtain ⟨seen, below⟩ := ih r.length (by simp) r rfl
        exact ⟨_, .miss (fun a w s same here => begins ⟨a, w, s, same, here⟩) below⟩

/-- A search takes a text apart in one way. -/
theorem Leftmost.exists_unique (unambiguous : Unambiguous pattern) (cs : List Char) :
    ∃ seen, ∀ other, Leftmost pattern other cs ↔ other = seen := by
  obtain ⟨seen, h⟩ := Leftmost.exists unambiguous cs
  exact ⟨seen, fun other => ⟨h.unique unambiguous, fun same => same ▸ h⟩⟩

end Leftmost

/-! ### References -/

/-- The name of a reference. -/
structure IsName (name : List Char) : Prop where
  starts : ∃ d r, name = d :: r ∧ isNameStart d = true
  chars : name.all isNameChar = true

/-- What is looked for in a tag. -/
inductive Lexeme where
  | literal (w : List Char)
  | reference (name : List Char)

/-- A tag, taken apart by the search in it. -/
abbrev TagReading := List (Seen Lexeme)

/-- A template, taken apart by the search for tags and the searches in them. -/
abbrev Reading := List (Seen TagReading)

/-- A literal is left as it is, and a reference has the longest name that it can have. -/
inductive LexemeAt : Lexeme → List Char → List Char → Prop where
  | literal {w r : List Char} : IsLiteral w → LexemeAt (.literal w) w r
  | reference {name r : List Char} : IsName name → (∀ c ∈ r.head?, isNameChar c = false) →
      LexemeAt (.reference name) ('@' :: name) r

theorem isNameChar_of_isNameStart (start : isNameStart c = true) : isNameChar c = true := by
  simp only [isNameStart, isNameChar, Bool.or_eq_true, Char.isAlphanum] at start ⊢
  exact .inl (start.imp .inl id)

theorem takeWhile_name {name : List Char} (chars : name.all isNameChar = true)
    (ends : ∀ c ∈ r.head?, isNameChar c = false) : (name ++ r).takeWhile isNameChar = name := by
  rw [List.takeWhile_append_of_pos (List.all_eq_true.mp chars)]
  cases r with
  | nil => simp
  | cons c r => simp [ends c rfl]

/-- Behind an at sign, whatever can start a name is the start of a reference. -/
theorem lexemeAt_of_start {d : Char} (start : isNameStart d = true) (r : List Char) :
    LexemeAt (.reference ((d :: r).takeWhile isNameChar)) ('@' :: (d :: r).takeWhile isNameChar)
      ((d :: r).dropWhile isNameChar) := by
  refine .reference ⟨⟨d, r.takeWhile isNameChar, ?_, start⟩, List.all_takeWhile⟩ ?_
  · rw [List.takeWhile_cons_of_pos (isNameChar_of_isNameStart start)]
  · intro c first
    have stops := List.head?_dropWhile_not isNameChar (d :: r)
    rw [Option.mem_def.mp first] at stops
    simpa using stops

/-- Behind an at sign that is missed no name starts. -/
theorem not_start_of_missed {d : Char}
    (none : ∀ a w s, '@' :: d :: r = w ++ s → ¬ LexemeAt a w s) : ¬ isNameStart d = true := by
  intro start
  refine none _ _ _ ?_ (lexemeAt_of_start start r)
  rw [List.cons_append, List.takeWhile_append_dropWhile]

theorem at_ne_quote (quote : q = '"' ∨ q = '\'') : '@' ≠ q := by
  rcases quote with rfl | rfl <;> decide

theorem lexemeAt_unambiguous : Unambiguous LexemeAt where
  nonempty here := by
    cases here with
    | literal is =>
      obtain ⟨q, inner, -, -, rfl⟩ := is
      exact List.cons_ne_nil _ _
    | reference => exact List.cons_ne_nil _ _
  unique here there same := by
    cases here with
    | literal is =>
      cases there with
      | literal is' =>
        cases (literal?_of_isLiteral is _).symm.trans (literal?_eq_some_iff.mpr ⟨is', same⟩)
        exact ⟨rfl, rfl⟩
      | reference =>
        obtain ⟨q, inner, quote, -, rfl⟩ := is
        exact absurd (List.cons.inj same).1.symm (at_ne_quote quote)
    | reference named ends =>
      cases there with
      | literal is =>
        obtain ⟨q, inner, quote, -, rfl⟩ := is
        exact absurd (List.cons.inj same).1 (at_ne_quote quote)
      | reference named' ends' =>
        have names := congrArg (List.takeWhile isNameChar) (List.cons.inj same).2
        rw [List.append_eq, List.append_eq, takeWhile_name named.chars ends,
          takeWhile_name named'.chars ends'] at names
        rw [names]
        exact ⟨rfl, rfl⟩

/-! ### Tags -/

/-- Two opening braces up to two closing ones, with no closing brace between. -/
def IsTag (w : List Char) : Prop :=
  ∃ inner, '\x7d' ∉ inner ∧ w = '\x7b' :: '\x7b' :: (inner ++ ['\x7d', '\x7d'])

theorem tag?_eq_some_iff : tag? cs = some (w, rest) ↔ IsTag w ∧ cs = w ++ rest := by
  constructor
  · intro found
    obtain ⟨spelled, -, -⟩ := tag?_eq_some found
    refine ⟨?_, spelled⟩
    rw [tag?] at found
    split at found
    · simp only at found
      split at found
      · cases found
        refine ⟨_, fun mem => ?_, rfl⟩
        have other := List.all_eq_true.mp List.all_takeWhile _ mem
        exact absurd other (by decide)
      · cases found
    · cases found
  · rintro ⟨⟨inner, free, rfl⟩, rfl⟩
    simpa using tag?_inner free ('\x7d' :: rest)

theorem tag?_of_isTag (is : IsTag w) (rest : List Char) : tag? (w ++ rest) = some (w, rest) :=
  tag?_eq_some_iff.mpr ⟨is, rfl⟩

/-- A tag, whatever follows it, and what is found in it. -/
def TagAt (lexemes : TagReading) (w _rest : List Char) : Prop :=
  IsTag w ∧ Leftmost LexemeAt lexemes w

theorem tagAt_unambiguous : Unambiguous TagAt where
  nonempty here := by
    obtain ⟨⟨inner, -, rfl⟩, -⟩ := here
    exact List.cons_ne_nil _ _
  unique here there same := by
    cases (tag?_of_isTag here.1 _).symm.trans (tag?_eq_some_iff.mpr ⟨there.1, same⟩)
    exact ⟨there.2.unique lexemeAt_unambiguous here.2, rfl⟩

end Promptry.Template.DataVariables
