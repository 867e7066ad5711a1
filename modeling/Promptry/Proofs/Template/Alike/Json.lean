import Promptry.Json.Reader
import Promptry.Proofs.Template.Splice

/-!
JSON texts with something put in behind at signs. At signs stand inside of strings only, where what
is put in stands for itself, so that a text that holds a value still holds one. Main statement:
`ofChars?_renamed`.
-/

namespace Promptry.Json

open Template (Spliced Renamed)
open Template.DataVariables (redirection)

variable {cs cs' r : List Char}

/-! ### Numbers -/

theorem fractionPart?_of_ne (ne : ∀ r, cs ≠ '.' :: r) : fractionPart? cs = some (none, cs) := by
  rw [fractionPart?.eq_def]
  split
  · next r => exact absurd rfl (ne r)
  · rfl

/-- A number is read as the same number. -/
theorem fractionPart?_renamed (h : Renamed cs cs') {f : Option (List Char)}
    (read : fractionPart? cs = some (f, r)) :
    ∃ r', fractionPart? cs' = some (f, r') ∧ Renamed r r' := by
  rcases h.head_cases '.' (by decide) with ⟨s, s', rfl, rfl, rest⟩ | ⟨ne, ne'⟩
  · simp only [fractionPart?, rest.takeWhile_eq (p := Char.isDigit) rfl] at read ⊢
    split at read
    · cases read
    · next digits =>
      cases read
      rw [if_neg digits]
      exact ⟨_, rfl, rest.dropWhile rfl⟩
  · rw [fractionPart?_of_ne ne] at read
    cases read
    exact ⟨_, fractionPart?_of_ne ne', h⟩

/-- The sign of an exponent. -/
def signed (cs : List Char) : Bool × List Char :=
  match cs with
  | '+' :: r => (false, r)
  | '-' :: r => (true, r)
  | r => (false, r)

theorem signed_of_ne (ne : ∀ r, cs ≠ '+' :: r) (ne' : ∀ r, cs ≠ '-' :: r) :
    signed cs = (false, cs) := by
  rw [signed.eq_def]
  split
  · next r => exact absurd rfl (ne r)
  · next r => exact absurd rfl (ne' r)
  · rfl

theorem signed_renamed (h : Renamed cs cs') :
    (signed cs').1 = (signed cs).1 ∧ Renamed (signed cs).2 (signed cs').2 := by
  rcases h.head_cases '+' (by decide) with ⟨r, r', rfl, rfl, rest⟩ | ⟨ne, ne'⟩
  · exact ⟨rfl, rest⟩
  · rcases h.head_cases '-' (by decide) with ⟨r, r', rfl, rfl, rest⟩ | ⟨other, other'⟩
    · exact ⟨rfl, rest⟩
    · rw [signed_of_ne ne other, signed_of_ne ne' other']
      exact ⟨rfl, h⟩

theorem exponentPart?_cons (c : Char) (cs : List Char) :
    exponentPart? (c :: cs) =
      if c == 'e' || c == 'E' then
        if ((signed cs).2.takeWhile Char.isDigit).isEmpty then none
        else
          let v : Int := Number.digitsValue ((signed cs).2.takeWhile Char.isDigit)
          some (some (if (signed cs).1 then -v else v), (signed cs).2.dropWhile Char.isDigit)
      else some (none, c :: cs) := rfl

theorem exponentPart?_renamed (h : Renamed cs cs') {e : Option Int}
    (read : exponentPart? cs = some (e, r)) :
    ∃ r', exponentPart? cs' = some (e, r') ∧ Renamed r r' := by
  cases h with
  | nil => cases read; exact ⟨[], rfl, .nil⟩
  | splice here rest => cases read; exact ⟨_, rfl, .splice here rest⟩
  | @cons c s s' rest =>
    obtain ⟨sign, behind⟩ := signed_renamed rest
    rw [exponentPart?_cons] at read ⊢
    rw [sign, behind.takeWhile_eq (p := Char.isDigit) rfl]
    split at read
    · next mark =>
      rw [if_pos mark]
      split at read
      · cases read
      · next digits =>
        cases read
        rw [if_neg digits]
        exact ⟨_, rfl, behind.dropWhile rfl⟩
    · next mark =>
      cases read
      rw [if_neg mark]
      exact ⟨_, rfl, .cons c rest⟩

/-- The sign of a number. -/
def negated (cs : List Char) : Bool × List Char :=
  match cs with
  | '-' :: r => (true, r)
  | r => (false, r)

theorem negated_of_ne (ne : ∀ r, cs ≠ '-' :: r) : negated cs = (false, cs) := by
  rw [negated.eq_def]
  split
  · next r => exact absurd rfl (ne r)
  · rfl

theorem negated_renamed (h : Renamed cs cs') :
    (negated cs').1 = (negated cs).1 ∧ Renamed (negated cs).2 (negated cs').2 := by
  rcases h.head_cases '-' (by decide) with ⟨r, r', rfl, rfl, rest⟩ | ⟨ne, ne'⟩
  · exact ⟨rfl, rest⟩
  · rw [negated_of_ne ne, negated_of_ne ne']
    exact ⟨rfl, h⟩

/-- The number of a sign and what stands behind it. -/
def numberOf? (neg : Bool) (cs : List Char) : Option (Number × List Char) := do
  let whole := cs.takeWhile Char.isDigit
  guard (!whole.isEmpty && (whole.length == 1 || whole.head? != some '0'))
  let (fraction, rest) ← fractionPart? (cs.dropWhile Char.isDigit)
  let (exponent, rest) ← exponentPart? rest
  let n ← Number.ofDigits? neg whole fraction exponent
  some (n, rest)

theorem number?_eq (cs : List Char) : number? cs = numberOf? (negated cs).1 (negated cs).2 := rfl

theorem numberOf?_renamed {neg : Bool} (h : Renamed cs cs') {n : Number}
    (read : numberOf? neg cs = some (n, r)) :
    ∃ r', numberOf? neg cs' = some (n, r') ∧ Renamed r r' := by
  obtain ⟨u, allowed, read⟩ := Option.bind_eq_some_iff.mp read
  obtain ⟨⟨f, s⟩, fraction, read⟩ := Option.bind_eq_some_iff.mp read
  obtain ⟨⟨e, t⟩, exponent, read⟩ := Option.bind_eq_some_iff.mp read
  obtain ⟨n', digits, same⟩ := Option.bind_eq_some_iff.mp read
  cases same
  obtain ⟨s', fraction', below⟩ := fractionPart?_renamed (h.dropWhile rfl) fraction
  obtain ⟨t', exponent', behind⟩ := exponentPart?_renamed below exponent
  refine ⟨t', ?_, behind⟩
  dsimp only [numberOf?]
  rw [h.takeWhile_eq (p := Char.isDigit) rfl, allowed]
  simp only [fraction', exponent', digits, Option.bind_eq_bind, Option.bind_some]

/-- A number is read as the same number. -/
theorem number?_renamed (h : Renamed cs cs') {n : Number} (read : number? cs = some (n, r)) :
    ∃ r', number? cs' = some (n, r') ∧ Renamed r r' := by
  obtain ⟨same, behind⟩ := negated_renamed h
  rw [number?_eq] at read ⊢
  rw [same]
  exact numberOf?_renamed behind read

/-- A number starts with a sign or a digit. -/
theorem head_of_number? {n : Number} (read : number? cs = some (n, r)) :
    ∃ c s, cs = c :: s ∧ (c = '-' ∨ c.isDigit = true) := by
  by_cases minus : ∃ s, cs = '-' :: s
  · obtain ⟨s, rfl⟩ := minus
    exact ⟨'-', s, rfl, .inl rfl⟩
  · rw [number?_eq, negated_of_ne fun s same => minus ⟨s, same⟩] at read
    cases cs with
    | nil => cases read
    | cons c s =>
      refine ⟨c, s, rfl, .inr ?_⟩
      by_cases digit : c.isDigit = true
      · exact digit
      · obtain ⟨u, allowed, -⟩ := Option.bind_eq_some_iff.mp read
        rw [List.takeWhile_cons_of_neg digit] at allowed
        cases allowed

/-! ### Strings -/

/-- A hexadecimal digit. -/
def isHex (c : Char) : Bool := (Text.hexDigit? c).isSome

theorem isSome_hexFour? (a b c d : Char) :
    (hexFour? a b c d).isSome = (isHex a && isHex b && isHex c && isHex d) := by
  simp only [hexFour?, isHex]
  cases Text.hexDigit? a <;> cases Text.hexDigit? b <;> cases Text.hexDigit? c <;>
    cases Text.hexDigit? d <;> rfl

theorem at_not_mem_escape {a b c d : Char} {n : Nat} (digits : hexFour? a b c d = some n) :
    '@' ∉ ['\\', 'u', a, b, c, d] := by
  have hex := isSome_hexFour? a b c d
  rw [digits] at hex
  simp only [Option.isSome_some, Eq.comm (a := true), Bool.and_eq_true] at hex
  obtain ⟨⟨⟨ha, hb⟩, hc⟩, hd⟩ := hex
  intro mem
  simp only [List.mem_cons, List.not_mem_nil, or_false] at mem
  rcases mem with same | same | rfl | rfl | rfl | rfl
  · exact absurd same (by decide)
  · exact absurd same (by decide)
  · exact absurd ha (by decide)
  · exact absurd hb (by decide)
  · exact absurd hc (by decide)
  · exact absurd hd (by decide)

theorem stringBody?_cons {c : Char} (ne : c ≠ '"') (ne' : c ≠ '\\') (acc : List Char)
    (cs : List Char) :
    stringBody? acc (c :: cs) = if c.toNat < 0x20 then none else stringBody? (c :: acc) cs := by
  rw [stringBody?.eq_def]
  split
  · next same => cases same
  · next same => exact absurd (List.cons.inj same).1 ne
  · next same => exact absurd (List.cons.inj same).1 ne'
  · next same => exact absurd (List.cons.inj same).1 ne'
  · next same =>
    obtain ⟨rfl, rfl⟩ := List.cons.inj same
    simp [ne']

/-- Over a stretch of characters that stand for themselves. -/
theorem stringBody?_over {w : List Char}
    (passed : (w.all fun c => c != '"' && c != '\\' && 0x20 ≤ c.toNat) = true)
    (acc cs : List Char) : stringBody? acc (w ++ cs) = stringBody? (w.reverse ++ acc) cs := by
  induction w generalizing acc with
  | nil => rfl
  | cons c w ih =>
    rw [List.all_cons, Bool.and_eq_true] at passed
    obtain ⟨first, passed⟩ := passed
    simp only [Bool.and_eq_true, bne_iff_ne, decide_eq_true_eq] at first
    obtain ⟨⟨ne, ne'⟩, seen⟩ := first
    rw [List.cons_append, stringBody?_cons ne ne', if_neg (Nat.not_lt.mpr seen), ih passed]
    simp

theorem stringBody?_escape {c e : Char} (escape : escapeChar? c = some e) (acc cs : List Char) :
    stringBody? acc ('\\' :: c :: cs) = stringBody? (e :: acc) cs := by
  have ne : c ≠ 'u' := by
    rintro rfl
    cases escape
  rw [stringBody?.eq_def]
  split
  · next same => cases same
  · next same => exact absurd (List.cons.inj same).1 (by decide)
  · next same => exact absurd (List.cons.inj (List.cons.inj same).2).1 ne
  · next same =>
    obtain ⟨rfl, rfl⟩ := List.cons.inj (List.cons.inj same).2
    rw [escape]
  · next other same =>
    exact absurd (List.cons.inj same).2.symm (other _ _ (List.cons.inj same).1.symm)

/-- A string goes on over what is put in. -/
theorem stringBody?_renamed (h : Renamed cs cs') {acc : List Char} (acc' : List Char) {s : String}
    (read : stringBody? acc cs = some (s, r)) :
    ∃ s' r', stringBody? acc' cs' = some (s', r') ∧ Renamed r r' := by
  fun_induction stringBody? acc cs generalizing cs' acc' with
  | case2 acc cs =>
    obtain ⟨below, rfl, rest⟩ := h.of_cons (by decide)
    cases read
    exact ⟨_, below, rfl, rest⟩
  | case6 acc a b c d hi digits notLow high a' b' c' d' cs lo digits' low code =>
    rename_i ih
    obtain ⟨between, rfl, inner⟩ := Spliced.of_append (at_not_mem_escape digits) h
    obtain ⟨below, rfl, rest⟩ := Spliced.of_append (at_not_mem_escape digits') inner
    obtain ⟨s', r', read', behind⟩ := ih rest (Char.ofNat code :: acc') read
    refine ⟨s', r', ?_, behind⟩
    simp only [List.cons_append, List.nil_append, stringBody?, digits, digits', notLow, high, low]
    exact read'
  | case9 acc a b c d cs n digits notLow notHigh ih =>
    obtain ⟨below, rfl, rest⟩ := Spliced.of_append (at_not_mem_escape digits) h
    obtain ⟨s', r', read', behind⟩ := ih rest (Char.ofNat n :: acc') read
    refine ⟨s', r', ?_, behind⟩
    simp only [List.cons_append, List.nil_append, stringBody?, digits, notLow, notHigh]
    exact read'
  | case10 acc c cs other e escape ih =>
    obtain ⟨between, rfl, inner⟩ := h.of_cons (by decide)
    have ne : c ≠ '@' := by
      rintro rfl
      cases escape
    obtain ⟨below, rfl, rest⟩ := inner.of_cons ne
    obtain ⟨s', r', read', behind⟩ := ih rest (e :: acc') read
    exact ⟨s', r', by rw [stringBody?_escape escape]; exact read', behind⟩
  | case13 acc c cs noQuote other noEscape plain ih =>
    simp only [Bool.or_eq_true, decide_eq_true_eq, beq_iff_eq, not_or] at plain
    cases h with
    | cons _ rest =>
      obtain ⟨s', r', read', behind⟩ := ih rest (c :: acc') read
      refine ⟨s', r', ?_, behind⟩
      rwa [stringBody?_cons noQuote plain.2, if_neg plain.1]
    | splice here rest =>
      obtain ⟨s', r', read', behind⟩ := ih rest (redirection.reverse ++ '@' :: acc') read
      refine ⟨s', r', ?_, behind⟩
      rwa [stringBody?_cons noQuote plain.2, if_neg plain.1, stringBody?_over (by decide)]
  | _ => cases read

/-! ### Values -/

theorem skipSpace_renamed (h : Renamed cs cs') : Renamed (skipSpace cs) (skipSpace cs') :=
  h.dropWhile rfl

/-- What reads a text in some steps reads it with something put in, if it may take as many. -/
def Follows {α : Type} (fuel : Nat) (read read' : Nat → List Char → Option (α × List Char)) :
    Prop :=
  ∀ ⦃fuel' cs cs' x r⦄, fuel ≤ fuel' → Renamed cs cs' → read fuel cs = some (x, r) →
    ∃ y r', read' fuel' cs' = some (y, r') ∧ Renamed r r'

/-- All readers of values follow. -/
structure AllFollow (fuel : Nat) : Prop where
  value : ∀ depth, Follows fuel (value? · depth) (value? · depth)
  items : ∀ depth acc acc', Follows fuel (items? · depth acc) (items? · depth acc')
  members : ∀ depth acc acc', Follows fuel (members? · depth acc) (members? · depth acc')

section

variable {fuel depth : Nat}

/-- A keyword stays as it is. -/
theorem exists_keyword {w s : List Char} {v : Json} (plain : '@' ∉ w) (h : Renamed cs cs')
    (spelled : skipSpace cs = w ++ s)
    (reads : ∀ cs t, skipSpace cs = w ++ t → value? fuel depth cs = some (v, t)) :
    ∃ y r', value? fuel depth cs' = some (y, r') ∧ Renamed s r' := by
  obtain ⟨t, spelled', rest⟩ := Spliced.of_append plain (spelled ▸ skipSpace_renamed h)
  exact ⟨v, t, reads cs' t spelled', rest⟩

/-- A value that does not start as a keyword, a string, a list or an object is a number. -/
theorem value?_number {n : Number} (read : number? (skipSpace cs) = some (n, r)) :
    value? (fuel + 1) depth cs = some (.num n, r) := by
  obtain ⟨c, s, spelled, start⟩ := head_of_number? read
  have other (d : Char) (minus : d ≠ '-') (digit : d.isDigit = false) :
      ∀ t, skipSpace cs ≠ d :: t := by
    intro t same
    rw [spelled] at same
    obtain ⟨rfl, -⟩ := List.cons.inj same
    rcases start with rfl | start
    · exact minus rfl
    · rw [digit] at start
      cases start
  rw [value?.eq_def]
  split
  · next same => cases same
  · next same =>
    cases same
    split
    · next same => exact absurd same (other 'n' (by decide) (by decide) _)
    · next same => exact absurd same (other 't' (by decide) (by decide) _)
    · next same => exact absurd same (other 'f' (by decide) (by decide) _)
    · next same => exact absurd same (other '"' (by decide) (by decide) _)
    · next same => exact absurd same (other '[' (by decide) (by decide) _)
    · next same => exact absurd same (other '\x7b' (by decide) (by decide) _)
    · rw [read]
      rfl

/-- A list without items, or with some. -/
theorem value?_list {s : List Char} (spelled : skipSpace cs = '[' :: s) :
    value? (fuel + 1) (depth + 1) cs = match skipSpace s with
      | ']' :: r => some (.arr [], r)
      | r => items? fuel depth [] r := by
  rw [value?, spelled]
  rfl

theorem value?_items {s : List Char} (spelled : skipSpace cs = '[' :: s)
    (ne : ∀ r, skipSpace s ≠ ']' :: r) :
    value? (fuel + 1) (depth + 1) cs = items? fuel depth [] (skipSpace s) := by
  rw [value?_list spelled]
  split
  · next r same => exact absurd same (ne r)
  · rfl

theorem value?_object {s : List Char} (spelled : skipSpace cs = '\x7b' :: s) :
    value? (fuel + 1) (depth + 1) cs = match skipSpace s with
      | '\x7d' :: r => some (.obj [], r)
      | r => members? fuel depth [] r := by
  rw [value?, spelled]
  rfl

theorem value?_members {s : List Char} (spelled : skipSpace cs = '\x7b' :: s)
    (ne : ∀ r, skipSpace s ≠ '\x7d' :: r) :
    value? (fuel + 1) (depth + 1) cs = members? fuel depth [] (skipSpace s) := by
  rw [value?_object spelled]
  split
  · next r same => exact absurd same (ne r)
  · rfl

theorem AllFollow.value_step (all : AllFollow fuel) (depth : Nat) :
    Follows (fuel + 1) (value? · depth) (value? · depth) := by
  intro fuel' cs cs' x r enough h read
  cases fuel' with
  | zero => cases enough
  | succ fuel' =>
    have enough : fuel ≤ fuel' := Nat.le_of_succ_le_succ enough
    have start := skipSpace_renamed h
    dsimp only at read ⊢
    rw [value?] at read
    split at read
    · next s spelled =>
      cases read
      exact exists_keyword (w := ['n', 'u', 'l', 'l']) (by decide) h spelled
        fun _ _ same => by rw [value?, same]; rfl
    · next s spelled =>
      cases read
      exact exists_keyword (w := ['t', 'r', 'u', 'e']) (by decide) h spelled
        fun _ _ same => by rw [value?, same]; rfl
    · next s spelled =>
      cases read
      exact exists_keyword (w := ['f', 'a', 'l', 's', 'e']) (by decide) h spelled
        fun _ _ same => by rw [value?, same]; rfl
    · next s spelled =>
      obtain ⟨s', spelled', rest⟩ := Spliced.of_cons (by decide) (spelled ▸ start)
      obtain ⟨⟨text, r'⟩, body, same⟩ := Option.map_eq_some_iff.mp read
      cases same
      obtain ⟨text', t, body', behind⟩ := stringBody?_renamed rest [] body
      exact ⟨.str text', t, by rw [value?, spelled']; simp only [body', Option.map_some], behind⟩
    · next s spelled =>
      obtain ⟨s', spelled', rest⟩ := Spliced.of_cons (by decide) (spelled ▸ start)
      cases depth with
      | zero => cases read
      | succ depth =>
        rcases (skipSpace_renamed rest).head_cases ']' (by decide) with
          ⟨t, t', closes, closes', behind⟩ | ⟨ne, ne'⟩
        · simp only [closes] at read
          cases read
          exact ⟨.arr [], t', by rw [value?_list spelled', closes']; rfl, behind⟩
        · have read : items? fuel depth [] (skipSpace s) = some (x, r) := by
            rwa [← value?_items spelled ne, value?_list spelled]
          rw [value?_items spelled' ne']
          exact all.items depth [] [] enough (skipSpace_renamed rest) read
    · next s spelled =>
      obtain ⟨s', spelled', rest⟩ := Spliced.of_cons (by decide) (spelled ▸ start)
      cases depth with
      | zero => cases read
      | succ depth =>
        rcases (skipSpace_renamed rest).head_cases '\x7d' (by decide) with
          ⟨t, t', closes, closes', behind⟩ | ⟨ne, ne'⟩
        · simp only [closes] at read
          cases read
          exact ⟨.obj [], t', by rw [value?_object spelled', closes']; rfl, behind⟩
        · have read : members? fuel depth [] (skipSpace s) = some (x, r) := by
            rwa [← value?_members spelled ne, value?_object spelled]
          rw [value?_members spelled' ne']
          exact all.members depth [] [] enough (skipSpace_renamed rest) read
    · obtain ⟨⟨n, r'⟩, number, same⟩ := Option.map_eq_some_iff.mp read
      cases same
      obtain ⟨t, number', behind⟩ := number?_renamed start number
      exact ⟨_, t, value?_number number', behind⟩

theorem AllFollow.items_step (all : AllFollow fuel) (depth : Nat) (acc acc' : List Json) :
    Follows (fuel + 1) (items? · depth acc) (items? · depth acc') := by
  intro fuel' cs cs' x r enough h read
  cases fuel' with
  | zero => cases enough
  | succ fuel' =>
    have enough : fuel ≤ fuel' := Nat.le_of_succ_le_succ enough
    dsimp only at read ⊢
    rw [items?] at read
    split at read
    · cases read
    · next v s item =>
      obtain ⟨v', s', item', rest⟩ := all.value depth enough h item
      dsimp only at item'
      have gap := skipSpace_renamed rest
      split at read
      · next t comma =>
        obtain ⟨t', comma', behind⟩ := Spliced.of_cons (by decide) (comma ▸ gap)
        obtain ⟨y, r', read', left⟩ := all.items depth (v :: acc) (v' :: acc') enough behind read
        exact ⟨y, r', by rw [items?, item']; simp only [comma']; exact read', left⟩
      · next t closes =>
        obtain ⟨t', closes', behind⟩ := Spliced.of_cons (by decide) (closes ▸ gap)
        cases read
        exact ⟨.arr (v' :: acc').reverse, t', by rw [items?, item']; simp only [closes'], behind⟩
      · cases read

theorem AllFollow.members_step (all : AllFollow fuel) (depth : Nat)
    (acc acc' : List (String × Json)) :
    Follows (fuel + 1) (members? · depth acc) (members? · depth acc') := by
  intro fuel' cs cs' x r enough h read
  cases fuel' with
  | zero => cases enough
  | succ fuel' =>
    have enough : fuel ≤ fuel' := Nat.le_of_succ_le_succ enough
    dsimp only at read ⊢
    rw [members?] at read
    split at read
    · next s quote =>
      obtain ⟨s', quote', inner⟩ := Spliced.of_cons (by decide) (quote ▸ skipSpace_renamed h)
      split at read
      · cases read
      · next k t key =>
        obtain ⟨k', t', key', behind⟩ := stringBody?_renamed inner [] key
        split at read
        · next u colon =>
          obtain ⟨u', colon', below⟩ :=
            Spliced.of_cons (by decide) (colon ▸ skipSpace_renamed behind)
          split at read
          · cases read
          · next v w item =>
            obtain ⟨v', w', item', rest⟩ := all.value depth enough below item
            dsimp only at item'
            split at read
            · next z comma =>
              obtain ⟨z', comma', tail⟩ :=
                Spliced.of_cons (by decide) (comma ▸ skipSpace_renamed rest)
              obtain ⟨y, r', read', left⟩ :=
                all.members depth ((k, v) :: acc) ((k', v') :: acc') enough tail read
              refine ⟨y, r', ?_, left⟩
              rw [members?, quote']
              simp only [key', colon', item', comma']
              exact read'
            · next z closes =>
              obtain ⟨z', closes', tail⟩ :=
                Spliced.of_cons (by decide) (closes ▸ skipSpace_renamed rest)
              cases read
              refine ⟨.obj (Fields.ofEntries ((k', v') :: acc').reverse), z', ?_, tail⟩
              rw [members?, quote']
              simp only [key', colon', item', closes']
            · cases read
        · cases read
    · cases read

theorem allFollow (fuel : Nat) : AllFollow fuel := by
  induction fuel with
  | zero =>
    refine ⟨fun _ _ _ _ _ _ _ _ read => ?_, fun _ _ _ _ _ _ _ _ _ _ read => ?_,
      fun _ _ _ _ _ _ _ _ _ _ read => ?_⟩
    · dsimp only at read
      rw [value?] at read
      cases read
    · dsimp only at read
      rw [items?] at read
      cases read
    · dsimp only at read
      rw [members?] at read
      cases read
  | succ fuel ih => exact ⟨ih.value_step, ih.items_step, ih.members_step⟩

end

/-- A text that holds a value still holds one, with something put in. -/
theorem ofChars?_renamed (h : Renamed cs cs') (holds : (ofChars? cs).isSome = true) :
    (ofChars? cs').isSome = true := by
  rw [ofChars?] at holds ⊢
  split at holds
  · next v r read =>
    split at holds
    · next ends =>
      have enough : 2 * cs.length + 2 ≤ 2 * cs'.length + 2 := by
        have := h.length_le
        omega
      obtain ⟨v', r', read', rest⟩ := (allFollow _).value 127 enough h read
      dsimp only at read'
      have ends' : skipSpace r' = [] :=
        (skipSpace_renamed rest).eq_nil_iff.mpr (List.isEmpty_iff.mp ends)
      simp [read', ends']
    · cases holds
  · cases holds

end Promptry.Json
