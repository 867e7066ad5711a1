import Promptry.Proofs.Template.Alike.Json
import Promptry.Proofs.Template.Alike.Path

/-!
Literals with references redirected. A literal holds at signs only inside of strings, where all that
is put in stands for itself; so it is measured alike, longer by that much, and is JSON if it was.
Main statements: `measureLiteral_alike` and `literal?_alike`.
-/

namespace Promptry.Template

open DataVariables
open Json (isHex isSome_hexFour?)

variable {cs cs' r r' : List Char} {n n' T T' : Nat}

/-- What was measured and what is left make up the whole lengths. -/
def Counted (T T' : Nat) (p q : Nat × List Char) : Prop :=
  p.1 + p.2.length = T ∧ q.1 + q.2.length = T'

/-- The same stretch was measured of two texts, or nothing. -/
structure Measures (T T' : Nat) (cs cs' : List Char) (p q : Nat × List Char) : Prop where
  left : Leaves cs cs' p.2 q.2
  counted : Counted T T' p q

/-! ### Strings -/

theorem measureQuoted_cons {q c : Char} (ne : c ≠ '\\') (n : Nat) (r : List Char) :
    measureQuoted q n (c :: r) = if c = q then some (n + 1, r) else measureQuoted q (n + 1) r := by
  rw [measureQuoted.eq_def]
  split
  · next same => cases same
  · next same => exact absurd (List.cons.inj same).1 ne
  · next same => exact absurd (List.cons.inj same).1 ne
  · next same =>
    obtain ⟨rfl, rfl⟩ := List.cons.inj same
    simp [ne]

/-- Over a stretch without backslashes and quotes. -/
theorem measureQuoted_over {q : Char} {w : List Char} (noEscape : '\\' ∉ w) (noQuote : q ∉ w)
    (n : Nat) (r : List Char) : measureQuoted q n (w ++ r) = measureQuoted q (n + w.length) r := by
  induction w generalizing n with
  | nil => rfl
  | cons c w ih =>
    obtain ⟨ne, noEscape⟩ := List.ne_and_not_mem_of_not_mem_cons noEscape
    obtain ⟨ne', noQuote⟩ := List.ne_and_not_mem_of_not_mem_cons noQuote
    rw [List.cons_append, measureQuoted_cons ne.symm, if_neg ne'.symm, ih noEscape noQuote,
      List.length_cons, Nat.add_right_comm, Nat.add_assoc]

/-- An escape by a code point has four digits. -/
theorem measureQuoted_unicode {q : Char} (ne : q ≠ 'u') (n : Nat) (s : List Char) :
    measureQuoted q n ('\\' :: 'u' :: s) =
      if 4 ≤ (s.takeWhile isHex).length then measureQuoted q (n + 6) (s.drop 4) else none := by
  by_cases long : ∃ a b c d r, s = a :: b :: c :: d :: r
  · obtain ⟨a, b, c, d, r, rfl⟩ := long
    rw [measureQuoted, isSome_hexFour?]
    congr 1
    simp only [List.takeWhile_cons]
    cases isHex a <;> cases isHex b <;> cases isHex c <;> cases isHex d <;> simp
  · have short : ¬ 4 ≤ (s.takeWhile isHex).length := by
      intro enough
      have longer := Nat.le_trans enough (List.takeWhile_prefix isHex).length_le
      match s, longer with
      | a :: b :: c :: d :: r, _ => exact long ⟨a, b, c, d, r, rfl⟩
    rw [if_neg short, measureQuoted.eq_def]
    split
    · next same => cases same
    · next a b c d r same =>
      exact absurd ⟨a, b, c, d, r, (List.cons.inj (List.cons.inj same).2).2⟩ long
    · next same =>
      obtain ⟨rfl, rfl⟩ := List.cons.inj (List.cons.inj same).2
      simp [Ne.symm ne]
    · next other same =>
      exact absurd (List.cons.inj same).2.symm (other _ _ (List.cons.inj same).1.symm)

/-- A letter behind a backslash that is no escape. -/
theorem measureQuoted_escape {q c : Char} (ne : c ≠ 'u') (n : Nat) (r : List Char) :
    measureQuoted q n ('\\' :: c :: r) =
      if c = q ∨ c ∈ ['\\', '/', 'b', 'f', 'n', 'r', 't'] then measureQuoted q (n + 2) r
      else none := by
  rw [measureQuoted.eq_def]
  split
  · next same => cases same
  · next same => exact absurd (List.cons.inj (List.cons.inj same).2).1 ne
  · next same =>
    obtain ⟨rfl, rfl⟩ := List.cons.inj (List.cons.inj same).2
    simp [or_assoc]
  · next other same =>
    exact absurd (List.cons.inj same).2.symm (other _ _ (List.cons.inj same).1.symm)

/-- A string is measured alike. -/
theorem measureQuoted_alike {q : Char} (isQuote : q = '"' ∨ q = '\'') {cs cs' : List Char}
    (h : Redirected cs cs') {n n' : Nat} (count : n + cs.length = T)
    (count' : n' + cs'.length = T') :
    TakesAlike (Counted T T') cs cs' (measureQuoted q n cs) (measureQuoted q n' cs') := by
  have notAt : '@' ≠ q := by rcases isQuote with rfl | rfl <;> decide
  cases h with
  | nil => exact .refused
  | @splice r r' here rest =>
    have noQuote : q ∉ redirection := by rcases isQuote with rfl | rfl <;> decide
    rw [measureQuoted_cons (by decide), measureQuoted_cons (by decide), if_neg notAt, if_neg notAt,
      measureQuoted_over (by decide) noQuote]
    simp only [List.length_cons, List.length_append] at count count'
    exact .behind (.splice rest) (measureQuoted_alike isQuote rest (by omega) (by omega))
  | @cons c r r' rest =>
    simp only [List.length_cons] at count count'
    by_cases escape : c = '\\'
    · subst escape
      cases rest with
      | nil => rcases isQuote with rfl | rfl <;> exact .refused
      | splice =>
        rw [measureQuoted_escape (by decide), measureQuoted_escape (by decide),
          if_neg (by simp [notAt]), if_neg (by simp [notAt])]
        exact .refused
      | @cons d s s' rest =>
        simp only [List.length_cons] at count count'
        by_cases unicode : d = 'u'
        · subst unicode
          have ne : q ≠ 'u' := by rcases isQuote with rfl | rfl <;> decide
          rw [measureQuoted_unicode ne, measureQuoted_unicode ne, rest.takeWhile_eq (by decide)]
          split
          · next digits =>
            have below := Leaves.drop (by decide) rest digits
            have enough := Nat.le_trans digits (List.takeWhile_prefix isHex).length_le
            have enough' := Nat.le_trans enough rest.length_le
            exact .behind ((Leaves.behind ['\\', 'u'] rest).trans below)
              (measureQuoted_alike isQuote below.rest (by rw [List.length_drop]; omega)
                (by rw [List.length_drop]; omega))
          · exact .refused
        · rw [measureQuoted_escape unicode, measureQuoted_escape unicode]
          split
          · exact .behind (.behind ['\\', d] rest)
              (measureQuoted_alike isQuote rest (by omega) (by omega))
          · exact .refused
    · rw [measureQuoted_cons escape, measureQuoted_cons escape]
      split
      · refine .read ⟨?_, ?_⟩ (.tail rest) (by simp)
        · show n + 1 + r.length = T
          omega
        · show n' + 1 + r'.length = T'
          omega
      · exact .behind (.tail rest) (measureQuoted_alike isQuote rest (by omega) (by omega))
termination_by cs.length

theorem measureString_of_ne (ne : ∀ r, cs ≠ '"' :: r) (ne' : ∀ r, cs ≠ '\'' :: r) (n : Nat) :
    measureString n cs = none := by
  rw [measureString.eq_def]
  split
  · next r => exact absurd rfl (ne r)
  · next r => exact absurd rfl (ne' r)
  · rfl

theorem measureString_alike (h : Redirected cs cs') (count : n + cs.length = T)
    (count' : n' + cs'.length = T') :
    TakesAlike (Counted T T') cs cs' (measureString n cs) (measureString n' cs') := by
  rcases h.head_cases '"' (by decide) with ⟨r, r', rfl, rfl, rest⟩ | ⟨ne, ne'⟩
  · simp only [List.length_cons] at count count'
    exact .behind (.tail rest) (measureQuoted_alike (.inl rfl) rest (by omega) (by omega))
  · rcases h.head_cases '\'' (by decide) with ⟨r, r', rfl, rfl, rest⟩ | ⟨other, other'⟩
    · simp only [List.length_cons] at count count'
      exact .behind (.tail rest) (measureQuoted_alike (.inr rfl) rest (by omega) (by omega))
    · rw [measureString_of_ne ne other, measureString_of_ne ne' other']
      exact .refused

/-! ### Numbers and keywords -/

theorem endsWord_eq (h : Redirected cs cs') : endsWord cs' = endsWord cs := by
  cases h <;> rfl

theorem measureWhile_measures {p : Char → Bool} (stops : p '@' = false) (h : Redirected cs cs')
    (count : n + cs.length = T) (count' : n' + cs'.length = T') :
    Measures T T' cs cs' (measureWhile p n cs) (measureWhile p n' cs') := by
  have whole := congrArg List.length (List.takeWhile_append_dropWhile (p := p) (l := cs))
  have whole' := congrArg List.length (List.takeWhile_append_dropWhile (p := p) (l := cs'))
  rw [List.length_append] at whole whole'
  refine ⟨.dropWhile stops h, ?_, ?_⟩ <;> simp only [measureWhile] <;> omega

theorem measureChar_measures {c : Char} (ne : c ≠ '@') (h : Redirected cs cs')
    (count : n + cs.length = T) (count' : n' + cs'.length = T') :
    Measures T T' cs cs' (measureChar c n cs) (measureChar c n' cs') := by
  cases h with
  | nil => exact ⟨.refl .nil, count, count'⟩
  | @cons d r r' rest =>
    rw [measureChar, measureChar]
    split
    · simp only [List.length_cons] at count count'
      exact ⟨.tail rest, by simp only; omega, by simp only; omega⟩
    · exact ⟨.refl (.cons d rest), count, count'⟩
  | splice here rest =>
    have other : ('@' == c) = false := by simpa using ne.symm
    rw [measureChar, measureChar, other]
    exact ⟨.refl (.splice here rest), count, count'⟩

theorem Measures.trans {p q p' q' : Nat × List Char} (first : Measures T T' cs cs' p q)
    (second : Measures T T' p.2 q.2 p' q') : Measures T T' cs cs' p' q' :=
  ⟨first.left.trans second.left, second.counted⟩

/-- The exponent of a number, if it has one. -/
def measureExponent (n : Nat) (r : List Char) : Nat × List Char :=
  match r with
  | 'E' :: e =>
      let (m, e) := measureChar '-' (n + 1) e
      if (e.takeWhile Char.isDigit).isEmpty then (n, r) else measureWhile Char.isDigit m e
  | _ => (n, r)

theorem measureExponent_of_ne (ne : ∀ r, cs ≠ 'E' :: r) (n : Nat) :
    measureExponent n cs = (n, cs) := by
  rw [measureExponent.eq_def]
  split
  · next e => exact absurd rfl (ne e)
  · rfl

theorem measureExponent_measures (h : Redirected cs cs') (count : n + cs.length = T)
    (count' : n' + cs'.length = T') :
    Measures T T' cs cs' (measureExponent n cs) (measureExponent n' cs') := by
  rcases h.head_cases 'E' (by decide) with ⟨r, r', rfl, rfl, rest⟩ | ⟨ne, ne'⟩
  · have sign : Measures T T' r r' (measureChar '-' (n + 1) r) (measureChar '-' (n' + 1) r') := by
      simp only [List.length_cons] at count count'
      exact measureChar_measures (by decide) rest (by omega) (by omega)
    simp only [measureExponent, sign.left.rest.takeWhile_eq (p := Char.isDigit) rfl]
    split
    · exact ⟨.refl h, count, count'⟩
    · exact ⟨(Leaves.tail rest).trans
        (sign.trans (measureWhile_measures rfl sign.left.rest sign.counted.1 sign.counted.2)).left,
        (measureWhile_measures rfl sign.left.rest sign.counted.1 sign.counted.2).counted⟩
  · rw [measureExponent_of_ne ne, measureExponent_of_ne ne']
    exact ⟨.refl h, count, count'⟩

theorem measureNumber_eq (n : Nat) (cs : List Char) :
    measureNumber n cs =
      let start := measureChar '-' n cs
      if (start.2.takeWhile Char.isDigit).isEmpty then none
      else
        let whole := measureWhile Char.isDigit start.1 start.2
        let point := measureChar '.' whole.1 whole.2
        let fraction := measureWhile Char.isDigit point.1 point.2
        let exponent := measureExponent fraction.1 fraction.2
        if endsWord exponent.2 then some exponent else none := by
  simp only [measureNumber]
  cases (measureChar '-' n cs).2.takeWhile Char.isDigit <;> rfl

theorem measureNumber_alike (h : Redirected cs cs') (count : n + cs.length = T)
    (count' : n' + cs'.length = T') :
    TakesAlike (Counted T T') cs cs' (measureNumber n cs) (measureNumber n' cs') := by
  rw [measureNumber_eq, measureNumber_eq]
  have start := measureChar_measures (c := '-') (by decide) h count count'
  simp only [start.left.rest.takeWhile_eq (p := Char.isDigit) rfl]
  generalize measureChar '-' n cs = s, measureChar '-' n' cs' = s' at start ⊢
  split
  · exact .refused
  · next digits =>
    have whole := measureWhile_measures (p := Char.isDigit) rfl start.left.rest start.counted.1
      start.counted.2
    have point := measureChar_measures (c := '.') (by decide) whole.left.rest whole.counted.1
      whole.counted.2
    have fraction := measureWhile_measures (p := Char.isDigit) rfl point.left.rest point.counted.1
      point.counted.2
    have exponent := measureExponent_measures fraction.left.rest fraction.counted.1
      fraction.counted.2
    have some : (measureWhile Char.isDigit s.1 s.2).2.length < s.2.length := by
      have both := congrArg List.length
        (List.takeWhile_append_dropWhile (p := Char.isDigit) (l := s.2))
      have nonempty : 0 < (s.2.takeWhile Char.isDigit).length :=
        List.length_pos_iff.mpr fun none => digits (by rw [none]; rfl)
      rw [List.length_append] at both
      show (s.2.dropWhile Char.isDigit).length < _
      omega
    rw [endsWord_eq exponent.left.rest]
    split
    · have behind := point.trans (fraction.trans exponent)
      exact .read behind.counted ((start.trans whole).trans behind).left
        (Nat.lt_of_le_of_lt behind.left.length_le (Nat.lt_of_lt_of_le some start.left.length_le))
    · exact .refused

theorem measureKeyword_alike {w : List Char} (plain : '@' ∉ w) (ne : w ≠ []) (h : Redirected cs cs')
    (count : n + cs.length = T) (count' : n' + cs'.length = T') :
    TakesAlike (Counted T T') cs cs' (measureKeyword w n cs) (measureKeyword w n' cs') := by
  rcases h.prefix_cases w plain with ⟨r, r', rfl, rfl, rest⟩ | ⟨other, other'⟩
  · simp only [measureKeyword, List.drop_left, isPrefixOf_append, Bool.true_and, endsWord_eq rest]
    rw [List.length_append] at count count'
    split
    · refine .read ⟨?_, ?_⟩ (.behind w rest) ?_
      · show n + w.length + r.length = T
        omega
      · show n' + w.length + r'.length = T'
        omega
      · have := List.length_pos_iff.mpr ne
        rw [List.length_append]
        omega
    · exact .refused
  · simp only [measureKeyword, isPrefixOf_of_ne other, isPrefixOf_of_ne other', Bool.false_and]
    exact .refused

/-! ### Literals -/

/-- A measure with fuel takes what the fuel is enough for off two texts alike. -/
def MeasuresAlike (measure : List Char → Nat → List Char → Measured) (fuel : List Char) : Prop :=
  ∀ ⦃fuel' n n' cs cs' T T'⦄, Redirected cs cs' → cs.length ≤ fuel.length →
    cs'.length ≤ fuel'.length → n + cs.length = T → n' + cs'.length = T' →
      TakesAlike (Counted T T') cs cs' (measure fuel n cs) (measure fuel' n' cs')

section

variable {measure : List Char → Nat → List Char → Measured} {fuel : List Char}
  (empty : ∀ fuel n, measure fuel n [] = none)
include empty

theorem MeasuresAlike.nil : MeasuresAlike measure [] := by
  intro fuel' n n' cs cs' T T' h enough _ _ _
  obtain rfl := List.eq_nil_of_length_eq_zero (Nat.le_zero.mp enough)
  obtain rfl := h.eq_nil_iff.mpr rfl
  rw [empty, empty]
  exact .refused

theorem MeasuresAlike.step (c : Char)
    (takes : ∀ ⦃c' fuel' n n' cs cs' T T'⦄, Redirected cs cs' → cs.length ≤ fuel.length + 1 →
      cs'.length ≤ fuel'.length + 1 → n + cs.length = T → n' + cs'.length = T' →
        TakesAlike (Counted T T') cs cs' (measure (c :: fuel) n cs)
          (measure (c' :: fuel') n' cs')) :
    MeasuresAlike measure (c :: fuel) := by
  intro fuel' n n' cs cs' T T' h enough enough' count count'
  cases fuel' with
  | nil =>
    obtain rfl := List.eq_nil_of_length_eq_zero (Nat.le_zero.mp enough')
    obtain rfl := h.eq_nil_iff.mp rfl
    rw [empty, empty]
    exact .refused
  | cons => exact takes h enough enough' count count'

end

theorem measureLiteral_nil (fuel : List Char) (n : Nat) : measureLiteral fuel n [] = none := by
  cases fuel with
  | nil => rw [measureLiteral]
  | cons =>
    simp only [measureLiteral]
    rfl

theorem measureItems_nil (fuel : List Char) (n : Nat) : measureItems fuel n [] = none := by
  cases fuel <;> rw [measureItems]
  rfl

theorem measureMember_nil (fuel : List Char) (n : Nat) : measureMember fuel n [] = none := by
  cases fuel <;> rw [measureMember]
  rfl

theorem measureMembers_nil (fuel : List Char) (n : Nat) : measureMembers fuel n [] = none := by
  cases fuel <;> rw [measureMembers]
  rfl

section

variable {fuel : List Char} (c : Char)

/-- What follows in a list or an object, behind the blanks: another item and those behind it, or the
closing character. -/
def measureMore (item more : List Char → Nat → List Char → Measured) (close : Char)
    (fuel : List Char) : Nat × List Char → Measured
  | (n, ',' :: r) =>
      let (n, r) := measureWhile isGap (n + 1) r
      (item fuel n r).bind fun (n, r) => more fuel n r
  | (n, r) => if r.head? = some close then some (n + 1, r.tail) else none

section

variable {item more : List Char → Nat → List Char → Measured} {close : Char} {fuel : List Char}

theorem measureMore_close (n : Nat) (r : List Char) (ne : close ≠ ',') :
    measureMore item more close fuel (n, close :: r) = some (n + 1, r) := by
  rw [measureMore]
  · exact if_pos rfl
  · rintro s same
    exact ne (List.cons.inj same).1

theorem measureMore_of_ne {s : List Char} (ne : ∀ r, s ≠ ',' :: r) (ne' : ∀ r, s ≠ close :: r) :
    measureMore item more close fuel (n, s) = none := by
  rw [measureMore, if_neg]
  · intro first
    obtain ⟨r, same⟩ := List.head?_eq_some_iff.mp first
    exact ne' r same
  · exact ne

end

theorem measureItems_cons (fuel : List Char) (n : Nat) (cs : List Char) :
    measureItems (c :: fuel) n cs =
      measureMore measureLiteral measureItems ']' fuel (measureWhile isGap n cs) := by
  rw [measureItems]
  generalize measureWhile isGap n cs = p
  split
  · rfl
  · exact (measureMore_close _ _ (by decide)).symm
  · next ne ne' =>
    exact (measureMore_of_ne (fun r same => ne _ r (Prod.ext rfl same))
      fun r same => ne' _ r (Prod.ext rfl same)).symm

theorem measureMembers_cons (fuel : List Char) (n : Nat) (cs : List Char) :
    measureMembers (c :: fuel) n cs =
      measureMore measureMember measureMembers '\x7d' fuel (measureWhile isGap n cs) := by
  rw [measureMembers]
  generalize measureWhile isGap n cs = p
  split
  · rfl
  · exact (measureMore_close _ _ (by decide)).symm
  · next ne ne' =>
    exact (measureMore_of_ne (fun r same => ne _ r (Prod.ext rfl same))
      fun r same => ne' _ r (Prod.ext rfl same)).symm

/-- One character in front, and then blanks. -/
theorem Measures.gap {d : Char} (before : Measures T T' cs cs' (n, d :: r) (n', d :: r'))
    (rest : Redirected r r') :
    Measures T T' cs cs' (measureWhile isGap (n + 1) r) (measureWhile isGap (n' + 1) r') ∧
      (measureWhile isGap (n + 1) r).2.length < cs.length := by
  obtain ⟨count, count'⟩ := before.counted
  simp only [List.length_cons] at count count'
  have gap : Measures T T' r r' (measureWhile isGap (n + 1) r) (measureWhile isGap (n' + 1) r') :=
    measureWhile_measures rfl rest (by omega) (by omega)
  exact ⟨⟨before.left.trans ((Leaves.tail rest).trans gap.left), gap.counted⟩,
    Nat.lt_of_lt_of_le (Nat.lt_succ_of_le gap.left.length_le) before.left.length_le⟩

/-- A closing character in front. -/
theorem Measures.close {d : Char} (before : Measures T T' cs cs' (n, d :: r) (n', d :: r'))
    (rest : Redirected r r') :
    TakesAlike (Counted T T') cs cs' (some (n + 1, r)) (some (n' + 1, r')) := by
  obtain ⟨count, count'⟩ := before.counted
  simp only [List.length_cons] at count count'
  exact .read ⟨by simp only; omega, by simp only; omega⟩ (before.left.trans (.tail rest))
    before.left.length_le

section

variable {item more : List Char → Nat → List Char → Measured} {fuel fuel' : List Char} {d : Char}
  (items : MeasuresAlike item fuel) (others : MeasuresAlike more fuel) (rest : Redirected r r')
  (enough : cs.length ≤ fuel.length + 1) (enough' : cs'.length ≤ fuel'.length + 1)
  (before : Measures T T' cs cs' (n, d :: r) (n', d :: r'))
include items others rest enough enough' before

/-- Behind a comma, an item and those behind it. -/
theorem Measures.next :
    TakesAlike (Counted T T') cs cs'
      (let (n, r) := measureWhile isGap (n + 1) r
       (item fuel n r).bind fun (n, r) => more fuel n r)
      (let (n, r) := measureWhile isGap (n' + 1) r'
       (item fuel' n r).bind fun (n, r) => more fuel' n r) := by
  obtain ⟨inner, shorter⟩ := before.gap rest
  have shorter' := inner.left.length_lt' shorter
  have one : TakesAlike (Counted T T') _ _ _ (item fuel' _ _) :=
    items inner.left.rest (by omega) (by omega) inner.counted.1 inner.counted.2
  refine .behind inner.left (one.bind fun a b t t' same left fewer => ?_)
  have fewer' := left.length_lt' fewer
  exact .behind left (others left.rest (by omega) (by omega) same.1 same.2)

/-- Behind an opening bracket or brace, an item, if there is one, and those behind it. -/
theorem Measures.first :
    TakesAlike (Counted T T') cs cs'
      (let (n, r) := measureWhile isGap (n + 1) r
       let (n, r) := (item fuel n r).getD (n, r)
       more fuel n r)
      (let (n, r) := measureWhile isGap (n' + 1) r'
       let (n, r) := (item fuel' n r).getD (n, r)
       more fuel' n r) := by
  obtain ⟨inner, shorter⟩ := before.gap rest
  have shorter' := inner.left.length_lt' shorter
  have one : TakesAlike (Counted T T') _ _ (item fuel _ _) (item fuel' _ _) :=
    items inner.left.rest (by omega) (by omega) inner.counted.1 inner.counted.2
  refine .behind inner.left ?_
  rcases one.cases with ⟨none, none'⟩ | ⟨a, b, t, t', some, some', same, left, fewer⟩
  · simp only [none, none', Option.getD_none]
    exact others inner.left.rest (by omega) (by omega) inner.counted.1 inner.counted.2
  · have fewer' := left.length_lt' fewer
    simp only [some, some', Option.getD_some]
    exact .behind left (others left.rest (by omega) (by omega) same.1 same.2)

end

theorem Measures.more {item more : List Char → Nat → List Char → Measured} {fuel fuel' : List Char}
    {p p' : Nat × List Char} {close : Char} (gap : Measures T T' cs cs' p p')
    (items : MeasuresAlike item fuel) (others : MeasuresAlike more fuel)
    (enough : cs.length ≤ fuel.length + 1) (enough' : cs'.length ≤ fuel'.length + 1)
    (plain : close ≠ '@') (ne : close ≠ ',') :
    TakesAlike (Counted T T') cs cs' (measureMore item more close fuel p)
      (measureMore item more close fuel' p') := by
  obtain ⟨m, s⟩ := p
  obtain ⟨m', s'⟩ := p'
  rcases gap.left.rest.head_cases ',' (by decide) with ⟨r, r', rfl, rfl, rest⟩ | ⟨other, other'⟩
  · exact gap.next items others rest enough enough'
  · rcases gap.left.rest.head_cases close plain with ⟨r, r', rfl, rfl, rest⟩ | ⟨open', open''⟩
    · rw [measureMore_close m r ne, measureMore_close m' r' ne]
      exact gap.close rest
    · rw [measureMore_of_ne other open', measureMore_of_ne other' open'']
      exact .refused

theorem measureItems_step (literal : MeasuresAlike measureLiteral fuel)
    (items : MeasuresAlike measureItems fuel) : MeasuresAlike measureItems (c :: fuel) := by
  refine .step measureItems_nil c fun c' fuel' n n' cs cs' T T' h enough enough' count count' => ?_
  rw [measureItems_cons, measureItems_cons]
  exact (measureWhile_measures rfl h count count').more literal items enough enough' (by decide)
    (by decide)

theorem measureMembers_step (member : MeasuresAlike measureMember fuel)
    (members : MeasuresAlike measureMembers fuel) : MeasuresAlike measureMembers (c :: fuel) := by
  refine .step measureMembers_nil c
    fun c' fuel' n n' cs cs' T T' h enough enough' count count' => ?_
  rw [measureMembers_cons, measureMembers_cons]
  exact (measureWhile_measures rfl h count count').more member members enough enough' (by decide)
    (by decide)

theorem measureMember_of_ne {fuel : List Char} {k m : Nat} {r s : List Char}
    (key : measureString n cs = some (k, r)) (gap : measureWhile isGap k r = (m, s))
    (ne : ∀ r, s ≠ ':' :: r) : measureMember (c :: fuel) n cs = none := by
  rw [measureMember, key]
  simp only [gap]
  split
  · next r same => cases same; exact absurd rfl (ne r)
  · rfl

theorem measureMember_step (literal : MeasuresAlike measureLiteral fuel) :
    MeasuresAlike measureMember (c :: fuel) := by
  refine .step measureMember_nil c fun c' fuel' n n' cs cs' T T' h enough enough' count count' => ?_
  rcases (measureString_alike h count count').cases with
    ⟨none, none'⟩ | ⟨k, k', s, s', key, key', counted, left, fewer⟩
  · rw [measureMember, measureMember, none, none']
    exact .refused
  · have gap := measureWhile_measures (p := isGap) rfl left.rest counted.1 counted.2
    refine .behind left ?_
    cases before : measureWhile isGap k s with
    | mk m t =>
    cases before' : measureWhile isGap k' s' with
    | mk m' t' =>
    rw [before, before'] at gap
    rcases gap.left.rest.head_cases ':' (by decide) with ⟨r, r', rfl, rfl, rest⟩ | ⟨ne, ne'⟩
    · obtain ⟨inner, shorter⟩ := gap.gap rest
      have shorter' := inner.left.length_lt' shorter
      have fewer' := left.length_lt' fewer
      rw [measureMember, measureMember, key, key']
      simp only [before, before']
      exact .behind inner.left
        (literal inner.left.rest (by omega) (by omega) inner.counted.1 inner.counted.2)
    · rw [measureMember_of_ne c key before ne, measureMember_of_ne c' key' before' ne']
      exact .refused

/-- A list or an object. -/
def measureNested (fuel : List Char) (n : Nat) (cs : List Char) : Measured :=
  match cs with
  | '[' :: r =>
      let (n, r) := measureWhile isGap (n + 1) r
      let (n, r) := (measureLiteral fuel n r).getD (n, r)
      measureItems fuel n r
  | '\x7b' :: r =>
      let (n, r) := measureWhile isGap (n + 1) r
      let (n, r) := (measureMember fuel n r).getD (n, r)
      measureMembers fuel n r
  | _ => none

theorem measureNested_of_ne {fuel : List Char} (ne : ∀ r, cs ≠ '[' :: r)
    (ne' : ∀ r, cs ≠ '\x7b' :: r) : measureNested fuel n cs = none := by
  rw [measureNested.eq_def]
  split
  · next r => exact absurd rfl (ne r)
  · next r => exact absurd rfl (ne' r)
  · rfl

theorem measureLiteral_cons (fuel : List Char) (n : Nat) (cs : List Char) :
    measureLiteral (c :: fuel) n cs =
      (measureString n cs).orElse fun _ => (measureNested fuel n cs).orElse fun _ =>
      (measureNumber n cs).orElse fun _ =>
      (measureKeyword ['n', 'u', 'l', 'l'] n cs).orElse fun _ =>
      (measureKeyword ['t', 'r', 'u', 'e'] n cs).orElse fun _ =>
        measureKeyword ['f', 'a', 'l', 's', 'e'] n cs := by
  rw [measureLiteral.eq_def]
  rfl

theorem measureLiteral_step (literal : MeasuresAlike measureLiteral fuel)
    (items : MeasuresAlike measureItems fuel) (member : MeasuresAlike measureMember fuel)
    (members : MeasuresAlike measureMembers fuel) : MeasuresAlike measureLiteral (c :: fuel) := by
  refine .step measureLiteral_nil c
    fun c' fuel' n n' cs cs' T T' h enough enough' count count' => ?_
  have nested : TakesAlike (Counted T T') cs cs' (measureNested fuel n cs)
      (measureNested fuel' n' cs') := by
    have here : Measures T T' cs cs' (n, cs) (n', cs') := ⟨.refl h, count, count'⟩
    rcases h.head_cases '[' (by decide) with ⟨r, r', rfl, rfl, rest⟩ | ⟨ne, ne'⟩
    · exact here.first literal items rest enough enough'
    · rcases h.head_cases '\x7b' (by decide) with ⟨r, r', rfl, rfl, rest⟩ | ⟨other, other'⟩
      · exact here.first member members rest enough enough'
      · rw [measureNested_of_ne ne other, measureNested_of_ne ne' other']
        exact .refused
  rw [measureLiteral_cons, measureLiteral_cons]
  exact (measureString_alike h count count').orElse <| nested.orElse <|
    (measureNumber_alike h count count').orElse <|
    (measureKeyword_alike (by decide) (by decide) h count count').orElse <|
    (measureKeyword_alike (by decide) (by decide) h count count').orElse <|
    measureKeyword_alike (by decide) (by decide) h count count'

end

theorem measures_alike (fuel : List Char) :
    MeasuresAlike measureLiteral fuel ∧ MeasuresAlike measureItems fuel ∧
      MeasuresAlike measureMember fuel ∧ MeasuresAlike measureMembers fuel := by
  induction fuel with
  | nil => exact ⟨.nil measureLiteral_nil, .nil measureItems_nil, .nil measureMember_nil,
      .nil measureMembers_nil⟩
  | cons c fuel ih =>
    obtain ⟨literal, items, member, members⟩ := ih
    exact ⟨measureLiteral_step c literal items member members, measureItems_step c literal items,
      measureMember_step c literal, measureMembers_step c member members⟩

/-- A literal is measured alike. -/
theorem measureLiteral_alike (h : Redirected cs cs') :
    TakesAlike (Counted cs.length cs'.length) cs cs' (measureLiteral cs 0 cs)
      (measureLiteral cs' 0 cs') :=
  (measures_alike cs).1 h (Nat.le_refl _) (Nat.le_refl _) (Nat.zero_add _) (Nat.zero_add _)

/-! ### As JSON -/

/-- A quoted text ends with its quote. -/
theorem measureQuoted_spells {q : Char} {m : Nat} (found : measureQuoted q n cs = some (m, r)) :
    ∃ s, cs = s ++ q :: r := by
  fun_induction measureQuoted q n cs with
  | case1 => cases found
  | case2 n a b c d cs _ ih =>
    obtain ⟨s, rfl⟩ := ih found
    exact ⟨'\\' :: 'u' :: a :: b :: c :: d :: s, rfl⟩
  | case3 => cases found
  | case4 n c cs _ _ ih =>
    obtain ⟨s, rfl⟩ := ih found
    exact ⟨'\\' :: c :: s, rfl⟩
  | case5 => cases found
  | case6 n c cs _ _ same =>
    cases found
    exact ⟨[], by simp_all⟩
  | case7 => cases found
  | case8 n c cs _ _ _ _ ih =>
    obtain ⟨s, rfl⟩ := ih found
    exact ⟨c :: s, rfl⟩

/-- A literal that starts with a single quote ends with one. -/
theorem measureLiteral_single {fuel : List Char} {m : Nat} {s : List Char}
    (found : measureLiteral fuel n ('\'' :: s) = some (m, r)) :
    ∃ inner, s = inner ++ '\'' :: r := by
  cases fuel with
  | nil =>
    rw [measureLiteral] at found
    cases found
  | cons c fuel =>
    rw [measureLiteral_cons] at found
    cases quoted : measureString n ('\'' :: s) with
    | some p =>
      rw [quoted] at found
      cases found
      exact measureQuoted_spells quoted
    | none =>
      rw [quoted, measureNested_of_ne (by simp) (by simp)] at found
      simp [measureNumber, measureChar, measureKeyword, Char.isDigit] at found

theorem requote_cons {c : Char} (ne : c ≠ '"') (noEscape : c = '\\' → ∀ s, cs ≠ '\'' :: s) :
    requote (c :: cs) = c :: requote cs := by
  rw [requote.eq_def]
  split
  · next s same =>
    obtain ⟨rfl, rfl⟩ := List.cons.inj same
    exact absurd rfl (noEscape rfl s)
  · next same => exact absurd (List.cons.inj same).1 ne
  · next same =>
    obtain ⟨rfl, rfl⟩ := List.cons.inj same
    rfl
  · next same => cases same

/-- Over a stretch without quotes and backslashes. -/
theorem requote_over {w : List Char} (noQuote : '"' ∉ w) (noEscape : '\\' ∉ w) (cs : List Char) :
    requote (w ++ cs) = w ++ requote cs := by
  induction w with
  | nil => rfl
  | cons c w ih =>
    obtain ⟨ne, noQuote⟩ := List.ne_and_not_mem_of_not_mem_cons noQuote
    obtain ⟨ne', noEscape⟩ := List.ne_and_not_mem_of_not_mem_cons noEscape
    rw [List.cons_append, requote_cons ne.symm fun same => absurd same ne'.symm,
      ih noQuote noEscape, List.cons_append]

theorem requote_renamed (h : Renamed cs cs') : Renamed (requote cs) (requote cs') := by
  fun_induction requote cs generalizing cs' with
  | case1 cs ih =>
    obtain ⟨below, rfl, rest⟩ := Spliced.of_append (p := ['\\', '\'']) (by decide) h
    exact .cons _ (ih rest)
  | case2 cs ih =>
    obtain ⟨below, rfl, rest⟩ := h.of_cons (by decide)
    exact .cons _ (.cons _ (ih rest))
  | case3 c cs noEscape ne ih =>
    cases h with
    | @cons _ _ below rest =>
      rw [requote_cons fun same => ne same]
      · exact .cons c (ih rest)
      · rintro rfl s rfl
        obtain ⟨t, rfl, -⟩ := rest.to_cons (by decide)
        exact noEscape t rfl rfl
    | splice here rest =>
      rw [requote_cons (by decide) fun same => absurd same (by decide),
        requote_over (by decide) (by decide)]
      exact .splice trivial (ih rest)
  | case4 =>
    rw [h.eq_nil_iff.mpr rfl]
    exact .nil

theorem literalText_of_ne (ne : ∀ r, cs ≠ '\'' :: r) : literalText cs = cs := by
  rw [literalText.eq_def]
  split
  · next r => exact absurd rfl (ne r)
  · rfl

/-- The text of a literal is that of the other one with something put in. -/
theorem literalText_renamed (h : Renamed cs cs')
    (closed : ∀ s, cs = '\'' :: s → ∃ inner, s = inner ++ ['\'']) :
    Renamed (literalText cs) (literalText cs') := by
  rcases h.head_cases '\'' (by decide) with ⟨s, s', rfl, rfl, rest⟩ | ⟨ne, ne'⟩
  · obtain ⟨inner, rfl⟩ := closed s rfl
    obtain ⟨inner', last, rfl, between, end'⟩ := rest.split
    obtain ⟨none, rfl, empty⟩ := end'.of_cons (by decide)
    rw [empty.eq_nil_iff.mpr rfl, literalText, literalText, List.dropLast_concat,
      List.dropLast_concat]
    exact .cons _ ((requote_renamed between).append (.refl _))
  · rwa [literalText_of_ne ne, literalText_of_ne ne']

/-- What has no invalid literal in it has none with references redirected. -/
def StaysValid (e e' : Expr) : Prop := e.firstInvalid? = none → e'.firstInvalid? = none

theorem literal?_eq (cs : List Char) : literal? cs = (measureLiteral cs 0 cs).map fun p =>
    (match Json.ofChars? (literalText (cs.take p.1)) with
      | some v => .literal v
      | none => .invalid (String.ofList (cs.take p.1)), p.2) := by
  rw [literal?]
  cases measureLiteral cs 0 cs <;> rfl

theorem take_of_counted {w : List Char} (count : n + r.length = (w ++ r).length) :
    (w ++ r).take n = w := by
  rw [List.length_append, Nat.add_right_cancel_iff] at count
  rw [count, List.take_left]

/-- A literal is read alike, and stays valid. -/
theorem literal?_alike (h : Redirected cs cs') :
    ReadsAlike StaysValid cs cs' (literal? cs) (literal? cs') := by
  rw [literal?_eq, literal?_eq]
  rcases (measureLiteral_alike h).cases with
    ⟨none, none'⟩ | ⟨m, m', r, r', found, found', counted, left, shorter⟩
  · rw [none, none']
    exact .refused
  · rw [found, found', Option.map_some, Option.map_some]
    refine .read ?_ left shorter
    obtain ⟨-, w, w', rfl, rfl, taken⟩ := left
    simp only [take_of_counted counted.1, take_of_counted counted.2]
    have closed : ∀ s, w = '\'' :: s → ∃ inner, s = inner ++ ['\''] := by
      rintro s rfl
      obtain ⟨inner, same⟩ := measureLiteral_single found
      have whole : s ++ r = (inner ++ ['\'']) ++ r := by
        rw [List.append_assoc]
        exact same
      exact ⟨inner, List.append_cancel_right whole⟩
    have text := literalText_renamed taken closed
    intro valid
    split at valid
    · next v holds =>
      have holds' := Json.ofChars?_renamed text (by rw [holds]; rfl)
      obtain ⟨v', holds'⟩ := Option.isSome_iff_exists.mp holds'
      rw [holds']
      rfl
    · cases valid

end Promptry.Template
