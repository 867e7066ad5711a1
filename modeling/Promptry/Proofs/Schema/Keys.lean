import Mathlib.Data.List.TakeWhile
import Promptry.Schema.FieldKey

/-!
The grammar of the texts and the keys in a shorthand, without the reader that cuts them up. A text
is a word, with a note behind the first comma (`Annotated`). A key is a name, with a question mark
behind it if the field is optional, and with a text in parentheses whose word says how the value is
meant (`KeyOf`). A text and a key are read in one way only, that of the grammar. Main statements:
`annotated_iff` and `keyOf_iff`.
-/

namespace Promptry.Schema

open Text (isBlank)

/-! ### Blanks around a text -/

/-- Neither the first nor the last character is blank. -/
structure Tight (w : List Char) : Prop where
  head : ∀ c, w.head? = some c → isBlank c = false
  last : ∀ c, w.getLast? = some c → isBlank c = false

/-- A text is `w` with blanks around it, which `w` has none of at its own ends. -/
def TrimsTo (cs w : List Char) : Prop :=
  ∃ before after, cs = before ++ w ++ after ∧ (∀ c ∈ before, isBlank c = true) ∧
    (∀ c ∈ after, isBlank c = true) ∧ Tight w

theorem TrimsTo.trim_eq {cs w : List Char} (trims : TrimsTo cs w) : Text.trim cs = w := by
  obtain ⟨before, after, rfl, blank, blank', tight⟩ := trims
  have front : Text.isBlankText before = true := List.all_eq_true.mpr blank
  have back : Text.isBlankText after = true := List.all_eq_true.mpr blank'
  cases w with
  | nil =>
    refine (Text.trim_eq_nil_iff _).mpr ?_
    rw [List.append_nil, Text.isBlankText, List.all_append, Bool.and_eq_true]
    exact ⟨front, back⟩
  | cons c w =>
    have start : Text.trimStart (c :: w ++ after) = c :: w ++ after :=
      Text.trimStart_eq_self tight.head
    rw [Text.trim, List.append_assoc, Text.trimStart_append front, start,
      Text.trimEnd_append back, Text.trimEnd_eq_self tight.last]

/-- What dropping the blanks at the end takes off. -/
theorem exists_trimEnd (cs : List Char) : ∃ after, cs = Text.trimEnd cs ++ after ∧
    (∀ c ∈ after, isBlank c = true) ∧
      ∀ c, (Text.trimEnd cs).getLast? = some c → isBlank c = false := by
  refine ⟨(cs.reverse.takeWhile isBlank).reverse, ?_, ?_, ?_⟩
  · rw [Text.trimEnd, ← List.reverse_append, List.takeWhile_append_dropWhile, List.reverse_reverse]
  · intro c mem
    exact List.mem_takeWhile_imp (List.mem_reverse.mp mem)
  · intro c last
    rw [Text.trimEnd, List.getLast?_reverse] at last
    obtain ⟨rest, here⟩ := List.head?_eq_some_iff.mp last
    exact Text.dropWhile_isBlank_head here

theorem trimsTo_trim (cs : List Char) : TrimsTo cs (Text.trim cs) := by
  obtain ⟨after, split, blank, last⟩ := exists_trimEnd (Text.trimStart cs)
  refine ⟨cs.takeWhile isBlank, after, ?_, fun c => List.mem_takeWhile_imp, blank, ?_, last⟩
  · rw [List.append_assoc, Text.trim, ← split, Text.trimStart, List.takeWhile_append_dropWhile]
  · intro c here
    obtain ⟨rest, here⟩ := List.head?_eq_some_iff.mp here
    rw [← Text.trim, here, List.cons_append] at split
    exact Text.dropWhile_isBlank_head split

theorem trimsTo_iff {cs w : List Char} : TrimsTo cs w ↔ Text.trim cs = w := by
  constructor
  · exact TrimsTo.trim_eq
  · rintro rfl
    exact trimsTo_trim cs

/-! ### Texts -/

/-- The texts before and behind a character that is not in the first of them. -/
theorem splitFirst?_append {sep : Char} {front : List Char} (free : sep ∉ front)
    (rest : List Char) : splitFirst? sep (front ++ sep :: rest) = some (front, rest) := by
  have passed : ∀ c ∈ front, (c != sep) = true := by
    intro c mem
    rw [bne_iff_ne]
    rintro rfl
    exact free mem
  rw [splitFirst?, List.dropWhile_append_of_pos passed, List.takeWhile_append_of_pos passed]
  simp

theorem splitFirst?_of_not_mem {sep : Char} {cs : List Char} (free : sep ∉ cs) :
    splitFirst? sep cs = none := by
  have passed : cs.dropWhile (· != sep) = [] := by
    rw [List.dropWhile_eq_nil_iff]
    intro c mem
    rw [bne_iff_ne]
    rintro rfl
    exact free mem
  rw [splitFirst?, passed]

/-- A text is a word, and a note behind the first comma, unless only blanks are there. -/
inductive Annotated (cs : List Char) : String → Option String → Prop where
  | bare {word : List Char} : ',' ∉ cs → TrimsTo cs word → Annotated cs (.ofList word) none
  | blank {front rest word : List Char} : cs = front ++ ',' :: rest → ',' ∉ front →
      TrimsTo front word → TrimsTo rest [] → Annotated cs (.ofList word) none
  | noted {front rest word note : List Char} : cs = front ++ ',' :: rest → ',' ∉ front →
      TrimsTo front word → TrimsTo rest note → note ≠ [] →
      Annotated cs (.ofList word) (some (.ofList note))

theorem Annotated.split_eq {cs : List Char} {word : String} {note : Option String}
    (annotated : Annotated cs word note) : splitDescription cs = (word, note) := by
  cases annotated with
  | bare free trims => simp [splitDescription, splitFirst?_of_not_mem free, trims.trim_eq]
  | blank split free trims trims' =>
    simp [splitDescription, split, splitFirst?_append free, trims.trim_eq, trims'.trim_eq]
  | noted split free trims trims' here =>
    simp [splitDescription, split, splitFirst?_append free, trims.trim_eq, trims'.trim_eq, here]

/-- Every text is read as the grammar says. -/
theorem annotated_split (cs : List Char) :
    Annotated cs (splitDescription cs).1 (splitDescription cs).2 := by
  by_cases comma : ',' ∈ cs
  · obtain ⟨front, rest, split, free⟩ := List.eq_append_cons_of_mem comma
    by_cases empty : Text.trim rest = []
    · have read : splitDescription cs = (.ofList (Text.trim front), none) := by
        simp [splitDescription, split, splitFirst?_append free, empty]
      rw [read]
      exact .blank split free (trimsTo_trim front) (trimsTo_iff.mpr empty)
    · have read : splitDescription cs =
          (.ofList (Text.trim front), some (.ofList (Text.trim rest))) := by
        simp [splitDescription, split, splitFirst?_append free, empty]
      rw [read]
      exact .noted split free (trimsTo_trim front) (trimsTo_trim rest) empty
  · have read : splitDescription cs = (.ofList (Text.trim cs), none) := by
      simp [splitDescription, splitFirst?_of_not_mem comma]
    rw [read]
    exact .bare comma (trimsTo_trim cs)

theorem annotated_iff {cs : List Char} {word : String} {note : Option String} :
    Annotated cs word note ↔ splitDescription cs = (word, note) := by
  constructor
  · exact Annotated.split_eq
  · intro read
    have here := annotated_split cs
    rwa [read] at here

/-! ### Keys -/

/-- A question mark behind a name says that the field is optional. -/
inductive Marked : List Char → String → Bool → Prop where
  | optional (name : List Char) : Marked (name ++ ['?']) (.ofList name) true
  | required {name : List Char} : name.getLast? ≠ some '?' → Marked name (.ofList name) false

/-- A parenthesis is closed by the last character, or not at all. -/
inductive Closes : List Char → List Char → Prop where
  | closed (inner : List Char) : Closes (inner ++ [')']) inner
  | unclosed {inner : List Char} : inner.getLast? ≠ some ')' → Closes inner inner

/-- The form that a word in parentheses names. -/
inductive NamesForm : String → Form → Prop where
  | array : NamesForm "array" .array
  | object : NamesForm "object" .object
  | enumeration : NamesForm "enum" .enumeration
  | unknown {word : String} : word ∉ ["array", "object", "enum"] → NamesForm word (.unknown word)

/-- What a key says of its field. -/
inductive KeyOf (k : String) : FieldKey → Prop where
  | plain {name : String} {optional : Bool} : '(' ∉ k.toList → Marked k.toList name optional →
      KeyOf k ⟨name, optional, .plain, none⟩
  | formed {front inside inner : List Char} {name word : String} {optional : Bool} {form : Form}
      {note : Option String} : k.toList = front ++ '(' :: inside → '(' ∉ front →
      Marked front name optional → Closes inside inner → Annotated inner word note →
      NamesForm word form → KeyOf k ⟨name, optional, form, note⟩

theorem dropLast?_append (c : Char) (cs : List Char) : dropLast? c (cs ++ [c]) = some cs := by
  simp [dropLast?]

theorem dropLast?_of_getLast?_ne {c : Char} {cs : List Char} (other : cs.getLast? ≠ some c) :
    dropLast? c cs = none := if_neg other

theorem marked_iff {cs : List Char} {name : String} {optional : Bool} :
    Marked cs name optional ↔ nameOf cs = (name, optional) := by
  constructor
  · intro marked
    cases marked with
    | optional name => rw [nameOf, dropLast?_append]
    | required other => rw [nameOf, dropLast?_of_getLast?_ne other]
  · intro read
    by_cases mark : cs.getLast? = some '?'
    · obtain ⟨front, rfl⟩ := List.getLast?_eq_some_iff.mp mark
      rw [nameOf, dropLast?_append] at read
      cases read
      exact .optional front
    · rw [nameOf, dropLast?_of_getLast?_ne mark] at read
      cases read
      exact .required mark

theorem closes_iff {inside inner : List Char} :
    Closes inside inner ↔ (dropLast? ')' inside).getD inside = inner := by
  constructor
  · intro closes
    cases closes with
    | closed inner => rw [dropLast?_append, Option.getD_some]
    | unclosed other => rw [dropLast?_of_getLast?_ne other, Option.getD_none]
  · intro read
    by_cases close : inside.getLast? = some ')'
    · obtain ⟨front, rfl⟩ := List.getLast?_eq_some_iff.mp close
      rw [dropLast?_append, Option.getD_some] at read
      exact read ▸ .closed front
    · rw [dropLast?_of_getLast?_ne close, Option.getD_none] at read
      exact read ▸ .unclosed close

theorem namesForm_iff {word : String} {form : Form} :
    NamesForm word form ↔ Form.ofWord word = form := by
  constructor
  · intro names
    cases names with
    | array | object | enumeration => rfl
    | unknown other =>
      simp only [List.mem_cons, List.not_mem_nil, or_false, not_or] at other
      rw [Form.ofWord, if_neg other.1, if_neg other.2.1, if_neg other.2.2]
  · rintro rfl
    unfold Form.ofWord
    split
    · next same => exact same ▸ .array
    · next notArray =>
      split
      · next same => exact same ▸ .object
      · next notObject =>
        split
        · next same => exact same ▸ .enumeration
        · next notEnum => exact .unknown (by simp [notArray, notObject, notEnum])

/-- What a key says is what it is read as. -/
theorem keyOf_iff {k : String} {key : FieldKey} : KeyOf k key ↔ FieldKey.ofText k = key := by
  constructor
  · intro given
    cases given with
    | plain free marked =>
      rw [FieldKey.ofText, splitFirst?_of_not_mem free, marked_iff.mp marked]
    | formed split free marked closes annotated names =>
      rw [FieldKey.ofText, split, splitFirst?_append free]
      simp only [marked_iff.mp marked, closes_iff.mp closes, annotated_iff.mp annotated,
        namesForm_iff.mp names]
  · rintro rfl
    by_cases parenthesis : '(' ∈ k.toList
    · obtain ⟨front, inside, split, free⟩ := List.eq_append_cons_of_mem parenthesis
      rw [FieldKey.ofText, split, splitFirst?_append free]
      exact .formed split free (marked_iff.mpr rfl) (closes_iff.mpr rfl) (annotated_split _)
        (namesForm_iff.mpr rfl)
    · rw [FieldKey.ofText, splitFirst?_of_not_mem parenthesis]
      exact .plain parenthesis (marked_iff.mpr rfl)

/-- A key says in which form the value of its field is meant. -/
def HasForm (k : String) (form : Form) : Prop := ∃ key, KeyOf k key ∧ key.form = form

theorem hasForm_iff {k : String} {form : Form} :
    HasForm k form ↔ (FieldKey.ofText k).form = form := by
  simp [HasForm, keyOf_iff]

instance (k : String) (form : Form) : Decidable (HasForm k form) :=
  decidable_of_iff _ hasForm_iff.symm

end Promptry.Schema
