import Promptry.Proofs.Template.Alike.Literal
import Promptry.Proofs.Template.Exact.Basic

/-!
Literals with references redirected, exactly. A literal is made up of whole strings, which the
search leaves alone, and of characters that mean nothing to it; so it comes out as it is. Main
statements: `measureString_passed`, `measures_passed` and `literal?_follows`.
-/

namespace Promptry.Template

open DataVariables

variable {cs r s : List Char} {n m : Nat}

/-! ### Strings -/

theorem quoted?_over {q : Char} {w : List Char} (noEscape : '\\' ∉ w) (noQuote : q ∉ w)
    (acc cs : List Char) : quoted? q acc (w ++ cs) = quoted? q (w.reverse ++ acc) cs := by
  induction w generalizing acc with
  | nil => rfl
  | cons c w ih =>
    obtain ⟨plain, noEscape⟩ := List.ne_and_not_mem_of_not_mem_cons noEscape
    obtain ⟨other, noQuote⟩ := List.ne_and_not_mem_of_not_mem_cons noQuote
    rw [List.cons_append, quoted?_cons plain.symm, if_neg other.symm, ih noEscape noQuote]
    simp

/-- A string is a literal that the search leaves alone. -/
theorem measureQuoted_quoted? {q : Char} (isQuote : q = '"' ∨ q = '\'')
    (found : measureQuoted q n cs = some (m, r)) (acc : List Char) :
    ∃ w, cs = w ++ r ∧ quoted? q acc cs = some (acc.reverse ++ w, r) := by
  have noEscape : q ≠ '\\' := by rcases isQuote with rfl | rfl <;> decide
  fun_induction measureQuoted q n cs generalizing acc with
  | case1 => cases found
  | case2 n a b c d cs digits ih =>
    have hex : ∀ x ∈ [a, b, c, d], Json.isHex x = true := by
      rw [Json.isSome_hexFour?] at digits
      simp only [Bool.and_eq_true] at digits
      simp [digits]
    have noEscape' : '\\' ∉ [a, b, c, d] := fun mem => absurd (hex _ mem) (by decide)
    have noQuote : q ∉ [a, b, c, d] := fun mem => by
      rcases isQuote with rfl | rfl <;> exact absurd (hex _ mem) (by decide)
    obtain ⟨w, rfl, rest⟩ := ih found ([a, b, c, d].reverse ++ ('u' :: '\\' :: acc))
    have passed := quoted?_over noEscape' noQuote ('u' :: '\\' :: acc) (w ++ r)
    refine ⟨'\\' :: 'u' :: a :: b :: c :: d :: w, rfl, ?_⟩
    rw [show quoted? q acc ('\\' :: 'u' :: a :: b :: c :: d :: (w ++ r)) =
      quoted? q ('u' :: '\\' :: acc) ([a, b, c, d] ++ (w ++ r)) from rfl, passed, rest]
    simp
  | case3 => cases found
  | case4 n c cs other escape ih =>
    obtain ⟨w, rfl, rest⟩ := ih found (c :: '\\' :: acc)
    have plain : c ≠ '\n' := by
      rintro rfl
      rcases isQuote with rfl | rfl <;> simp at escape
    refine ⟨'\\' :: c :: w, rfl, ?_⟩
    simp only [quoted?, beq_iff_eq, plain, if_false]
    rw [rest]
    simp
  | case5 => cases found
  | case6 n c cs _ _ same =>
    obtain rfl : c = q := by simpa using same
    cases found
    exact ⟨[c], rfl, by rw [quoted?_cons noEscape, if_pos rfl]; simp⟩
  | case7 => cases found
  | case8 n c cs _ _ other plain ih =>
    obtain ⟨w, rfl, rest⟩ := ih found (c :: acc)
    refine ⟨c :: w, rfl, ?_⟩
    rw [quoted?_cons (by simpa using plain), if_neg (by simpa using other), rest]
    simp

theorem measureString_passed (found : measureString n cs = some (m, r)) : Passed cs r := by
  have inside {q : Char} (isQuote : q = '"' ∨ q = '\'') {s : List Char}
      (measured : measureQuoted q (n + 1) s = some (m, r))
      (start : ∀ s, DataVariables.literal? (q :: s) = quoted? q [q] s) : Passed (q :: s) r := by
    obtain ⟨w, rfl, quoted⟩ := measureQuoted_quoted? isQuote measured [q]
    rw [← start] at quoted
    exact ⟨q :: w, rfl, fun _ r' => .literal quoted .done⟩
  rw [measureString.eq_def] at found
  split at found
  · exact inside (.inl rfl) found fun _ => rfl
  · exact inside (.inr rfl) found fun _ => rfl
  · cases found

/-! ### Numbers and keywords -/

theorem isBare_of_isDigit {c : Char} (digit : c.isDigit = true) : isBare c = true := by
  have ne {d : Char} (other : d.isDigit = false) : c ≠ d := by
    rintro rfl
    rw [other] at digit
    cases digit
  exact isBare_iff.mpr ⟨ne (by decide), ne (by decide), ne (by decide)⟩

theorem measureChar_passed {c : Char} (bare : isBare c = true) (n : Nat) (cs : List Char) :
    Passed cs (measureChar c n cs).2 := by
  cases cs with
  | nil => exact .refl []
  | cons d r =>
    rw [measureChar]
    split
    · next same =>
      obtain rfl : d = c := by simpa using same
      exact .tail bare r
    · exact .refl _

theorem measureExponent_passed (n : Nat) (cs : List Char) : Passed cs (measureExponent n cs).2 := by
  rw [measureExponent.eq_def]
  split
  · next e =>
    dsimp only
    split
    · exact .refl _
    · exact (Passed.tail (by decide) e).trans ((measureChar_passed (by decide) _ e).trans
        (.dropWhile (fun _ => isBare_of_isDigit) _))
  · exact .refl _

theorem measureNumber_passed (found : measureNumber n cs = some (m, r)) : Passed cs r := by
  have digits (cs : List Char) : Passed cs (cs.dropWhile Char.isDigit) :=
    .dropWhile (fun _ => isBare_of_isDigit) cs
  rw [measureNumber_eq] at found
  dsimp only at found
  split at found
  · cases found
  · split at found
    · have behind := congrArg Prod.snd (Option.some.inj found)
      rw [← show _ = r from behind]
      exact (measureChar_passed (by decide) n cs).trans <| (digits _).trans <|
        (measureChar_passed (by decide) _ _).trans <| (digits _).trans <|
        measureExponent_passed _ _
    · cases found

theorem measureKeyword_passed {w : List Char} (bare : w.all isBare = true)
    (found : measureKeyword w n cs = some (m, r)) : Passed cs r := by
  rw [measureKeyword] at found
  split at found
  · next follows =>
    obtain ⟨s, rfl⟩ := List.isPrefixOf_iff_prefix.mp (Bool.and_eq_true_iff.mp follows).1
    cases found
    rw [List.drop_left]
    exact .bare bare s
  · cases found

/-! ### Lists and objects -/

/-- What a measure takes off comes out as it is. -/
def Passes (measure : Nat → List Char → Measured) : Prop :=
  ∀ ⦃n cs m r⦄, measure n cs = some (m, r) → Passed cs r

section

variable {item more : List Char → Nat → List Char → Measured} {fuel : List Char}
  (items : Passes (item fuel)) (others : Passes (more fuel))
include items others

theorem measureMore_passed {close : Char} (bare : isBare close = true) {p : Nat × List Char}
    (found : measureMore item more close fuel p = some (m, r)) : Passed p.2 r := by
  rw [measureMore.eq_def] at found
  split at found
  · next k s =>
    obtain ⟨⟨j, t⟩, one, behind⟩ := Option.bind_eq_some_iff.mp found
    exact (Passed.tail (by decide) s).trans <| (Passed.gap s).trans <|
      (items one).trans (others behind)
  · split at found
    · next k s _ first =>
      obtain ⟨t, rfl⟩ := List.head?_eq_some_iff.mp first
      cases found
      exact .tail bare t
    · cases found

/-- Behind the opening character. -/
theorem measureFirst_passed (n : Nat) {s : List Char}
    (found : (let (n, r) := measureWhile isGap (n + 1) s
      let (n, r) := (item fuel n r).getD (n, r)
      more fuel n r) = some (m, r)) : Passed s r := by
  dsimp only at found
  refine (Passed.gap s).trans ?_
  cases one : item fuel (measureWhile isGap (n + 1) s).1 (measureWhile isGap (n + 1) s).2 with
  | none =>
    rw [one] at found
    exact others found
  | some p =>
    rw [one] at found
    exact (items one).trans (others found)

end

theorem orElse_eq_some {α : Type} {o p : Option α} {a : α}
    (found : (o.orElse fun _ => p) = some a) :
    o = some a ∨ p = some a := by
  rw [Option.orElse_eq_or] at found
  exact (Option.or_eq_some_iff.mp found).imp_right And.right

/-- Literals come out as they are, with all that they are made up of. -/
theorem measures_passed (fuel : List Char) :
    Passes (measureLiteral fuel) ∧ Passes (measureItems fuel) ∧ Passes (measureMember fuel) ∧
      Passes (measureMembers fuel) := by
  induction fuel with
  | nil =>
    refine ⟨?_, ?_, ?_, ?_⟩ <;> intro n cs m r found
    · simp [measureLiteral] at found
    · simp [measureItems] at found
    · simp [measureMember] at found
    · simp [measureMembers] at found
  | cons c fuel ih =>
    obtain ⟨literal, items, member, members⟩ := ih
    refine ⟨?_, ?_, ?_, ?_⟩
    · intro n cs m r found
      rw [measureLiteral_cons] at found
      rcases orElse_eq_some found with string | found
      · exact measureString_passed string
      rcases orElse_eq_some found with nested | found
      · rw [measureNested.eq_def] at nested
        split at nested
        · exact (Passed.tail (by decide) _).trans (measureFirst_passed literal items n nested)
        · exact (Passed.tail (by decide) _).trans (measureFirst_passed member members n nested)
        · cases nested
      rcases orElse_eq_some found with number | found
      · exact measureNumber_passed number
      rcases orElse_eq_some found with keyword | found
      · exact measureKeyword_passed (by decide) keyword
      rcases orElse_eq_some found with keyword | keyword
      · exact measureKeyword_passed (by decide) keyword
      · exact measureKeyword_passed (by decide) keyword
    · intro n cs m r found
      rw [measureItems_cons] at found
      exact (Passed.gap cs).trans (measureMore_passed literal items (by decide) found)
    · intro n cs m r found
      rw [measureMember] at found
      split at found
      · cases found
      · next k s key =>
        refine (measureString_passed key).trans ((Passed.gap s).trans ?_)
        split at found
        · next j t colon =>
          rw [show skipGap s = ':' :: t from congrArg Prod.snd colon]
          exact (Passed.tail (by decide) t).trans ((Passed.gap t).trans (literal found))
        · cases found
    · intro n cs m r found
      rw [measureMembers_cons] at found
      exact (Passed.gap cs).trans (measureMore_passed member members (by decide) found)

/-! ### Literals -/

/-- A literal is read as it is. -/
theorem literal?_follows {strict : Prop} {e : Expr} (read : literal? cs = some (e, r)) :
    Follows strict literal? cs e r := by
  intro r' tail
  rw [literal?_eq] at read
  obtain ⟨⟨n, s⟩, found, same⟩ := Option.map_eq_some_iff.mp read
  obtain ⟨rfl, rfl⟩ := Prod.mk.inj same
  obtain ⟨w, rfl, scanned⟩ := (measures_passed cs).1 found
  have reads := measureLiteral_alike (tail.prepend w)
  rw [found] at reads
  obtain ⟨n', found', counted⟩ := reads.rest_eq (.refl w) tail
  refine ⟨w ++ r', scanned strict r', ?_⟩
  rw [literal?_eq, found', Option.map_some]
  simp only [take_of_counted counted.1, take_of_counted counted.2]

end Promptry.Template
