/-!
White space and trimming. A character is blank when it has the White_Space property; `trim` cuts
blanks off both ends and leaves the middle alone. Main statement: `trim_eq_nil_iff`, that a text
trims to nothing exactly when it holds blanks only.
-/

namespace Promptry.Text

/-- The characters with the White_Space property. -/
def isBlank (c : Char) : Bool :=
  let n := c.toNat
  (9 ≤ n && n ≤ 13) || n == 0x20 || n == 0x85 || n == 0xA0 || n == 0x1680 ||
    (0x2000 ≤ n && n ≤ 0x200A) || n == 0x2028 || n == 0x2029 || n == 0x202F || n == 0x205F ||
    n == 0x3000

/-- Drops the blanks in front. -/
def trimStart (cs : List Char) : List Char := cs.dropWhile isBlank

/-- Drops the blanks at the end. -/
def trimEnd (cs : List Char) : List Char := (cs.reverse.dropWhile isBlank).reverse

/-- Drops the blanks at both ends. -/
def trim (cs : List Char) : List Char := trimEnd (trimStart cs)

/-- A text of blanks only, the empty one among them. -/
def isBlankText (cs : List Char) : Bool := cs.all isBlank

theorem dropWhile_isBlank_eq_nil_iff (cs : List Char) :
    cs.dropWhile isBlank = [] ↔ cs.all isBlank = true := by
  induction cs with
  | nil => simp
  | cons c cs ih => by_cases h : isBlank c = true <;> simp [h, ih]

theorem dropWhile_isBlank_head {cs : List Char} {c : Char} {r : List Char}
    (h : cs.dropWhile isBlank = c :: r) : isBlank c = false := by
  induction cs with
  | nil => simp at h
  | cons d cs ih =>
    by_cases hd : isBlank d = true
    · rw [List.dropWhile_cons, if_pos hd] at h; exact ih h
    · rw [List.dropWhile_cons, if_neg hd] at h
      obtain ⟨rfl, -⟩ := List.cons.inj h
      simpa using hd

theorem trimStart_append {blanks : List Char} (blank : isBlankText blanks = true)
    (cs : List Char) : trimStart (blanks ++ cs) = trimStart cs :=
  List.dropWhile_append_of_pos (List.all_eq_true.mp blank)

theorem trimEnd_append {blanks : List Char} (blank : isBlankText blanks = true) (cs : List Char) :
    trimEnd (cs ++ blanks) = trimEnd cs := by
  have all : ∀ c ∈ blanks.reverse, isBlank c = true := fun c mem =>
    List.all_eq_true.mp blank c (List.mem_reverse.mp mem)
  rw [trimEnd, List.reverse_append, List.dropWhile_append_of_pos all, trimEnd]

theorem trimStart_eq_self {cs : List Char} (head : ∀ c, cs.head? = some c → isBlank c = false) :
    trimStart cs = cs := by
  cases cs with
  | nil => rfl
  | cons c cs => exact List.dropWhile_cons_of_neg (by simp [head c rfl])

theorem trimEnd_eq_self {cs : List Char} (last : ∀ c, cs.getLast? = some c → isBlank c = false) :
    trimEnd cs = cs := by
  have mirrored : trimStart cs.reverse = cs.reverse := trimStart_eq_self (by simpa using last)
  exact List.reverse_eq_iff.mpr mirrored

theorem trimEnd_eq_nil_iff (cs : List Char) : trimEnd cs = [] ↔ isBlankText cs = true := by
  rw [trimEnd, List.reverse_eq_nil_iff, dropWhile_isBlank_eq_nil_iff, List.all_reverse, isBlankText]

/-- A text trims to nothing exactly when it holds blanks only. -/
theorem trim_eq_nil_iff (cs : List Char) : trim cs = [] ↔ isBlankText cs = true := by
  rw [trim, trimEnd_eq_nil_iff]
  cases h : trimStart cs with
  | nil => simpa [isBlankText] using (dropWhile_isBlank_eq_nil_iff cs).1 h
  | cons c r =>
    have hc := dropWhile_isBlank_head h
    have hcs : ¬ cs.all isBlank = true := fun hall => by
      rw [← dropWhile_isBlank_eq_nil_iff] at hall
      rw [trimStart, hall] at h
      exact absurd h (by simp)
    simp [isBlankText, hc] at hcs ⊢
    exact hcs

/-- Trimming a text that is not blank leaves one that is not blank. -/
theorem isBlankText_trim (cs : List Char) : isBlankText (trim cs) = isBlankText cs := by
  rw [Bool.eq_iff_iff, ← trim_eq_nil_iff cs]
  constructor
  · intro blank
    simp only [trim, trimEnd, isBlankText, List.all_reverse] at blank ⊢
    cases h : (trimStart cs).reverse.dropWhile isBlank with
    | nil => rfl
    | cons c r =>
      rw [h, List.all_cons, dropWhile_isBlank_head h] at blank
      cases blank
  · intro empty
    rw [empty]
    rfl

/-- `trim` on strings. -/
def trimText (s : String) : String := String.ofList (trim s.toList)

end Promptry.Text
