import Promptry.Template.DataVariables

/-!
Texts of which one is the other with references redirected: behind some of its at signs a stretch of
characters is put in. None of them is a blank, a quote, a bracket or a brace, so that what is read
up to one of these is read alike. Main statements: `Spliced.prefix_cases`, `Spliced.dropWhile`,
`literal?_eq_some_iff`, that the literals that are left alone are those with quotes around them, and
`redirected_redirectAll`.
-/

namespace Promptry.Template

open DataVariables

/-- The second text is the first one with the redirection put in behind some of its at signs, where
what follows is allowed to. -/
inductive Spliced (allowed : List Char → Prop) : List Char → List Char → Prop
  | nil : Spliced allowed [] []
  | cons (c : Char) {cs cs' : List Char} (rest : Spliced allowed cs cs') :
      Spliced allowed (c :: cs) (c :: cs')
  | splice {cs cs' : List Char} (here : allowed cs) (rest : Spliced allowed cs cs') :
      Spliced allowed ('@' :: cs) ('@' :: (redirection ++ cs'))

/-- What follows the at sign of a reference that is redirected. -/
structure Foreign (cs : List Char) : Prop where
  starts : ∃ c r, cs = c :: r ∧ isNameStart c = true
  other : ownVariables.contains (String.ofList (cs.takeWhile isNameChar)) = false

/-- The second text is the first one with some references redirected. -/
abbrev Redirected : List Char → List Char → Prop := Spliced Foreign

/-- The second text is the first one with the redirection behind any of its at signs. -/
abbrev Renamed : List Char → List Char → Prop := Spliced fun _ => True

namespace Spliced

variable {allowed : List Char → Prop} {cs cs' ds ds' r r' : List Char} {c : Char}

theorem refl (cs : List Char) : Spliced allowed cs cs := by
  induction cs with
  | nil => exact .nil
  | cons c cs ih => exact .cons c ih

theorem renamed (h : Spliced allowed cs cs') : Renamed cs cs' := by
  induction h with
  | nil => exact .nil
  | cons c _ ih => exact .cons c ih
  | splice _ _ ih => exact .splice trivial ih

theorem eq_nil_iff (h : Spliced allowed cs cs') : cs' = [] ↔ cs = [] := by
  cases h <;> simp

theorem head?_eq (h : Spliced allowed cs cs') : cs'.head? = cs.head? := by
  cases h <;> rfl

theorem length_le (h : Spliced allowed cs cs') : cs.length ≤ cs'.length := by
  induction h with
  | nil => exact Nat.le_refl _
  | cons c _ ih => exact Nat.succ_le_succ ih
  | splice _ _ ih => simp only [List.length_cons, List.length_append]; omega

/-! ### Heads -/

theorem of_cons (ne : c ≠ '@') (h : Spliced allowed (c :: cs) ds) :
    ∃ cs', ds = c :: cs' ∧ Spliced allowed cs cs' := by
  cases h with
  | cons _ rest => exact ⟨_, rfl, rest⟩
  | splice => exact absurd rfl ne

theorem to_cons (ne : c ≠ '@') (h : Spliced allowed ds (c :: cs')) :
    ∃ cs, ds = c :: cs ∧ Spliced allowed cs cs' := by
  cases h with
  | cons _ rest => exact ⟨_, rfl, rest⟩
  | splice => exact absurd rfl ne

theorem of_append {p : List Char} (plain : '@' ∉ p) (h : Spliced allowed (p ++ r) ds) :
    ∃ r', ds = p ++ r' ∧ Spliced allowed r r' := by
  induction p generalizing ds with
  | nil => exact ⟨ds, rfl, h⟩
  | cons c p ih =>
    rw [List.mem_cons, not_or] at plain
    obtain ⟨behind, rfl, below⟩ := h.of_cons (Ne.symm plain.1)
    obtain ⟨r', rfl, rest⟩ := ih plain.2 below
    exact ⟨r', rfl, rest⟩

theorem to_append {p : List Char} (plain : '@' ∉ p) (h : Spliced allowed ds (p ++ r')) :
    ∃ r, ds = p ++ r ∧ Spliced allowed r r' := by
  induction p generalizing ds with
  | nil => exact ⟨ds, rfl, h⟩
  | cons c p ih =>
    rw [List.mem_cons, not_or] at plain
    obtain ⟨behind, rfl, above⟩ := h.to_cons (Ne.symm plain.1)
    obtain ⟨r, rfl, rest⟩ := ih plain.2 above
    exact ⟨r, rfl, rest⟩

/-- Both texts start with some characters, or none does. -/
theorem prefix_cases (p : List Char) (plain : '@' ∉ p) (h : Spliced allowed cs cs') :
    (∃ r r', cs = p ++ r ∧ cs' = p ++ r' ∧ Spliced allowed r r') ∨
      (∀ r, cs ≠ p ++ r) ∧ ∀ r', cs' ≠ p ++ r' := by
  by_cases starts : ∃ r, cs = p ++ r
  · obtain ⟨r, rfl⟩ := starts
    obtain ⟨r', rfl, rest⟩ := h.of_append plain
    exact .inl ⟨r, r', rfl, rfl, rest⟩
  · refine .inr ⟨fun r same => starts ⟨r, same⟩, ?_⟩
    rintro r' rfl
    obtain ⟨r, rfl, -⟩ := h.to_append plain
    exact starts ⟨r, rfl⟩

/-- Both texts start with a character, or none does. -/
theorem head_cases (c : Char) (ne : c ≠ '@') (h : Spliced allowed cs cs') :
    (∃ r r', cs = c :: r ∧ cs' = c :: r' ∧ Spliced allowed r r') ∨
      (∀ r, cs ≠ c :: r) ∧ ∀ r', cs' ≠ c :: r' :=
  h.prefix_cases [c] (by simpa using ne.symm)

/-- Both texts start with one of some marks, or none does. -/
theorem marks_cases (marks : List Char) (plain : '@' ∉ marks) (h : Spliced allowed cs cs') :
    (∃ c ∈ marks, ∃ r r', cs = c :: r ∧ cs' = c :: r' ∧ Spliced allowed r r') ∨
      (∀ c ∈ marks, ∀ r, cs ≠ c :: r) ∧ ∀ c ∈ marks, ∀ r', cs' ≠ c :: r' := by
  have noMark {c : Char} (mem : c ∈ marks) : c ≠ '@' := by
    rintro rfl
    exact plain mem
  by_cases starts : ∃ c ∈ marks, ∃ r, cs = c :: r
  · obtain ⟨c, mem, r, rfl⟩ := starts
    obtain ⟨r', rfl, rest⟩ := h.of_cons (noMark mem)
    exact .inl ⟨c, mem, r, r', rfl, rfl, rest⟩
  · refine .inr ⟨fun c mem r same => starts ⟨c, mem, r, same⟩, ?_⟩
    rintro c mem r' rfl
    obtain ⟨r, rfl, -⟩ := h.to_cons (noMark mem)
    exact starts ⟨c, mem, r, rfl⟩

theorem eq_of_not_mem (plain : '@' ∉ cs) (h : Spliced allowed cs cs') : cs' = cs := by
  rw [← List.append_nil cs] at h
  obtain ⟨r', rfl, rest⟩ := h.of_append plain
  rw [rest.eq_nil_iff.mpr rfl, List.append_nil]

theorem mem_at_iff (h : Spliced allowed cs cs') : '@' ∈ cs' ↔ '@' ∈ cs := by
  by_cases marked : '@' ∈ cs
  · refine iff_of_true ?_ marked
    induction h with
    | nil => exact marked
    | cons c _ ih =>
      rcases List.mem_cons.mp marked with same | marked
      · exact same ▸ List.mem_cons_self
      · exact List.mem_cons_of_mem _ (ih marked)
    | splice => exact List.mem_cons_self
  · rw [h.eq_of_not_mem marked]

/-! ### Stretches -/

theorem append (h : Renamed cs cs') (h' : Renamed ds ds') : Renamed (cs ++ ds) (cs' ++ ds') := by
  induction h with
  | nil => exact h'
  | cons c _ ih => exact .cons c ih
  | splice _ _ ih =>
    rw [List.cons_append, List.cons_append, List.append_assoc]
    exact .splice trivial ih

/-- The parts of a text put together. -/
theorem split (h : Renamed (cs ++ ds) r) :
    ∃ cs' ds', r = cs' ++ ds' ∧ Renamed cs cs' ∧ Renamed ds ds' := by
  induction cs generalizing r with
  | nil => exact ⟨[], r, rfl, .nil, h⟩
  | cons c cs ih =>
    cases h with
    | cons _ rest =>
      obtain ⟨cs', ds', rfl, front, behind⟩ := ih rest
      exact ⟨c :: cs', ds', rfl, .cons c front, behind⟩
    | splice _ rest =>
      obtain ⟨cs', ds', rfl, front, behind⟩ := ih rest
      exact ⟨'@' :: (redirection ++ cs'), ds', by simp, .splice trivial front, behind⟩

variable {p : Char → Bool}

/-- What is of no at sign is the same in both texts. -/
theorem takeWhile_eq (stops : p '@' = false) (h : Spliced allowed cs cs') :
    cs'.takeWhile p = cs.takeWhile p := by
  induction h with
  | nil => rfl
  | cons c _ ih => rw [List.takeWhile_cons, List.takeWhile_cons, ih]
  | splice => simp [stops]

theorem dropWhile (stops : p '@' = false) (h : Spliced allowed cs cs') :
    Spliced allowed (cs.dropWhile p) (cs'.dropWhile p) := by
  induction h with
  | nil => exact .nil
  | cons c rest ih =>
    rw [List.dropWhile_cons, List.dropWhile_cons]
    split
    · exact ih
    · exact .cons c rest
  | splice here rest =>
    rw [List.dropWhile_cons, List.dropWhile_cons, stops]
    exact .splice here rest

/-- A stretch that goes on over all that may be put in. -/
theorem takeWhile (goes : p '@' = true) (passed : redirection.all p = true)
    (h : Spliced allowed cs cs') : Renamed (cs.takeWhile p) (cs'.takeWhile p) := by
  induction h with
  | nil => exact .nil
  | cons c _ ih =>
    rw [List.takeWhile_cons, List.takeWhile_cons]
    split
    · exact .cons c ih
    · exact .nil
  | splice _ _ ih =>
    rw [List.takeWhile_cons, List.takeWhile_cons, goes,
      List.takeWhile_append_of_pos (List.all_eq_true.mp passed)]
    exact .splice trivial ih

theorem dropWhile_over (goes : p '@' = true) (passed : redirection.all p = true)
    (h : Spliced allowed cs cs') : Spliced allowed (cs.dropWhile p) (cs'.dropWhile p) := by
  induction h with
  | nil => exact .nil
  | cons c rest ih =>
    rw [List.dropWhile_cons, List.dropWhile_cons]
    split
    · exact ih
    · exact .cons c rest
  | splice _ _ ih =>
    rw [List.dropWhile_cons, List.dropWhile_cons, goes,
      List.dropWhile_append_of_pos (List.all_eq_true.mp passed)]
    exact ih

theorem prepend (w : List Char) (rest : Spliced allowed r r') :
    Spliced allowed (w ++ r) (w ++ r') := by
  induction w with
  | nil => exact rest
  | cons c w ih => exact .cons c ih

end Spliced

namespace DataVariables

variable {cs rest w : List Char} {c q : Char}

/-! ### Literals -/

/-- What may stand between quotes: no quote and no backslash, unless behind a backslash, and no line
feed behind one. -/
inductive Body (q : Char) : List Char → Prop where
  | nil : Body q []
  | plain {c : Char} {w : List Char} : c ≠ q → c ≠ '\\' → Body q w → Body q (c :: w)
  | escaped {c : Char} {w : List Char} : c ≠ '\n' → Body q w → Body q ('\\' :: c :: w)

/-- A complete literal, in double or single quotes. -/
def IsLiteral (w : List Char) : Prop :=
  ∃ q inner, (q = '"' ∨ q = '\'') ∧ Body q inner ∧ w = q :: (inner ++ [q])

theorem quoted?_cons {q : Char} (ne : c ≠ '\\') (acc cs : List Char) :
    quoted? q acc (c :: cs) =
      if c = q then some ((q :: acc).reverse, cs) else quoted? q (c :: acc) cs := by
  rw [quoted?.eq_def]
  split
  · next same => cases same
  · next same => exact absurd (List.cons.inj same).1 ne
  · next same =>
    obtain ⟨rfl, rfl⟩ := List.cons.inj same
    simp [ne]

theorem quoted?_of_body (ne : q ≠ '\\') {inner : List Char} (body : Body q inner)
    (acc rest : List Char) :
    quoted? q acc (inner ++ q :: rest) = some (acc.reverse ++ inner ++ [q], rest) := by
  induction body generalizing acc with
  | nil => simp [quoted?_cons ne]
  | plain other noBackslash _ ih =>
    rw [List.cons_append, quoted?_cons noBackslash, if_neg other, ih]
    simp
  | @escaped c w noFeed _ ih =>
    rw [List.cons_append, List.cons_append, quoted?, if_neg (by simpa using noFeed), ih]
    simp

theorem body_of_quoted? {acc written : List Char}
    (found : quoted? q acc cs = some (written, rest)) :
    ∃ inner, Body q inner ∧ written = acc.reverse ++ inner ++ [q] ∧ cs = inner ++ q :: rest := by
  fun_induction quoted? q acc cs with
  | case1 => cases found
  | case2 => cases found
  | case3 acc c cs noFeed ih =>
    obtain ⟨inner, body, rfl, rfl⟩ := ih found
    exact ⟨'\\' :: c :: inner, .escaped (by simpa using noFeed) body, by simp, rfl⟩
  | case4 acc c cs _ same =>
    obtain rfl : c = q := by simpa using same
    cases found
    exact ⟨[], .nil, by simp, rfl⟩
  | case5 => cases found
  | case6 acc c cs _ other noBackslash ih =>
    obtain ⟨inner, body, rfl, rfl⟩ := ih found
    exact ⟨c :: inner, .plain (by simpa using other) (by simpa using noBackslash) body, by simp,
      rfl⟩

theorem quote_ne_backslash (quote : q = '"' ∨ q = '\'') : q ≠ '\\' := by
  rcases quote with rfl | rfl <;> decide

theorem literal?_quote (quote : q = '"' ∨ q = '\'') (r : List Char) :
    literal? (q :: r) = quoted? q [q] r := by
  rcases quote with rfl | rfl <;> rfl

/-- Literals are read as what they are. -/
theorem literal?_eq_some_iff : literal? cs = some (w, rest) ↔ IsLiteral w ∧ cs = w ++ rest := by
  constructor
  · have behind {q : Char} (quote : q = '"' ∨ q = '\'') {r : List Char}
        (found : quoted? q [q] r = some (w, rest)) : IsLiteral w ∧ q :: r = w ++ rest := by
      obtain ⟨inner, body, rfl, rfl⟩ := body_of_quoted? found
      exact ⟨⟨q, inner, quote, body, rfl⟩, by simp⟩
    intro found
    rw [literal?.eq_def] at found
    split at found
    · exact behind (.inl rfl) found
    · exact behind (.inr rfl) found
    · cases found
  · rintro ⟨⟨q, inner, quote, body, rfl⟩, rfl⟩
    rw [List.cons_append, List.append_assoc, literal?_quote quote, List.singleton_append,
      quoted?_of_body (quote_ne_backslash quote) body]
    rfl

theorem literal?_of_isLiteral (is : IsLiteral w) (rest : List Char) :
    literal? (w ++ rest) = some (w, rest) :=
  literal?_eq_some_iff.mpr ⟨is, rfl⟩

theorem literal?_spells (found : literal? cs = some (w, rest)) : w ≠ [] ∧ cs = w ++ rest := by
  obtain ⟨⟨q, inner, -, -, rfl⟩, rfl⟩ := literal?_eq_some_iff.mp found
  exact ⟨nofun, rfl⟩

/-! ### Tags and templates -/

/-- The text ends with a closing brace, unless it is empty. -/
def EndsClosed (cs : List Char) : Prop := ∀ c ∈ cs.getLast?, c = '\x7d'

theorem EndsClosed.behind {w : List Char} (closed : EndsClosed (w ++ rest)) : EndsClosed rest := by
  intro c mem
  refine closed c ?_
  rw [Option.mem_def] at mem
  rw [Option.mem_def, List.getLast?_append, mem]
  rfl

/-- A name inside of a tag ends before the tag does. -/
theorem EndsClosed.takeWhile_append (closed : EndsClosed cs) (ne : cs ≠ []) (rest : List Char) :
    (cs ++ rest).takeWhile isNameChar = cs.takeWhile isNameChar := by
  have last : cs.getLast ne = '\x7d' := closed _ (List.getLast?_eq_some_getLast ne)
  rw [List.takeWhile_append, if_neg]
  intro whole
  have all := List.all_eq_true.mp (List.all_takeWhile (p := isNameChar) (l := cs))
  rw [(List.takeWhile_prefix isNameChar).eq_of_length whole] at all
  have open' := all _ (List.getLast_mem ne)
  rw [last] at open'
  exact absurd open' (by decide)

theorem redirectTag_redirected (fuel acc : List Char) (enough : cs.length ≤ fuel.length)
    (closed : EndsClosed cs) :
    ∃ out, redirectTag fuel acc cs = acc.reverse ++ out ∧
      ∀ rest rest', Redirected rest rest' → Redirected (cs ++ rest) (out ++ rest') := by
  fun_induction redirectTag fuel acc cs with
  | case1 acc _ fuel c r written rest found ih =>
    obtain ⟨nonempty, spelled⟩ := literal?_spells found
    have shorter : 0 < written.length := List.length_pos_iff.mpr nonempty
    have inside : EndsClosed rest := (spelled ▸ closed).behind
    have fewer : rest.length ≤ fuel.length := by
      rw [spelled, List.length_append, List.length_cons] at enough
      omega
    obtain ⟨out, same, redirected⟩ := ih fewer inside
    refine ⟨written ++ out, by simp [found, same], fun above above' tail => ?_⟩
    rw [spelled, List.append_assoc, List.append_assoc]
    exact (redirected above above' tail).prepend written
  | case2 acc _ fuel d r start name noLiteral ih =>
    have closed' : EndsClosed (d :: r) := closed.behind (w := ['@'])
    have spelled : name ++ (d :: r).dropWhile isNameChar = d :: r :=
      List.takeWhile_append_dropWhile
    have inside : EndsClosed ((d :: r).dropWhile isNameChar) :=
      (spelled.symm ▸ closed' : EndsClosed (name ++ _)).behind
    have fewer : ((d :: r).dropWhile isNameChar).length ≤ fuel.length := by
      have shorter := (List.dropWhile_suffix isNameChar (l := d :: r)).length_le
      simp only [List.length_cons] at enough shorter
      omega
    obtain ⟨out, same, redirected⟩ := ih fewer inside
    refine ⟨'@' :: (redirect name ++ (name ++ out)), ?_, fun above above' tail => ?_⟩
    · simp only [noLiteral, start, if_true]
      rw [same]
      simp
    have below := (redirected above above' tail).prepend name
    rw [← List.append_assoc, spelled] at below
    rw [redirect]
    split
    · simpa using Spliced.cons '@' below
    · next foreign =>
      have here : Foreign (d :: r ++ above) := by
        refine ⟨⟨d, r ++ above, rfl, start⟩, ?_⟩
        rw [closed'.takeWhile_append nofun]
        simpa using foreign
      simpa using Spliced.splice here below
  | case3 acc _ fuel d r notStart noLiteral ih =>
    obtain ⟨out, same, redirected⟩ := ih (by simpa using enough) (closed.behind (w := ['@']))
    refine ⟨'@' :: out, ?_, fun above above' tail => (redirected above above' tail).cons '@'⟩
    simp [noLiteral, notStart, same]
  | case4 acc _ fuel c r other noLiteral ih =>
    obtain ⟨out, same, redirected⟩ := ih (by simpa using enough) (closed.behind (w := [c]))
    refine ⟨c :: out, ?_, fun above above' tail => (redirected above above' tail).cons c⟩
    simp [noLiteral, same]
  | case5 fuel acc cs done =>
    cases cs with
    | nil => exact ⟨[], by simp, fun _ _ tail => tail⟩
    | cons c r =>
      cases fuel with
      | nil => cases enough
      | cons d fuel => exact absurd rfl (done d fuel c r rfl)

/-- A tag ends with its closing braces. -/
theorem tag?_eq_some {tag : List Char} (found : tag? cs = some (tag, rest)) :
    cs = tag ++ rest ∧ tag ≠ [] ∧ EndsClosed tag := by
  rw [tag?] at found
  split at found
  · next opens =>
    obtain ⟨r, rfl⟩ := (opensTag_iff cs).mp opens
    simp only [List.drop_succ_cons, List.drop_zero] at found
    split at found
    · next behind =>
      cases found
      have whole := List.takeWhile_append_dropWhile (p := (· != '\x7d')) (l := r)
      rw [behind] at whole
      refine ⟨by simp [whole], nofun, fun c last => ?_⟩
      rw [show ('\x7b' :: '\x7b' :: r.takeWhile (· != '\x7d')) ++ ['\x7d', '\x7d'] =
        ('\x7b' :: '\x7b' :: (r.takeWhile (· != '\x7d') ++ ['\x7d'])) ++ ['\x7d'] by simp,
        List.getLast?_concat] at last
      exact (Option.some.inj last).symm
    · cases found
  · cases found

theorem redirectFrom_redirected (fuel acc : List Char) (enough : cs.length ≤ fuel.length) :
    ∃ out, redirectFrom fuel acc cs = acc.reverse ++ out ∧ Redirected cs out := by
  fun_induction redirectFrom fuel acc cs with
  | case1 acc _ fuel c r tag rest found ih =>
    obtain ⟨spelled, nonempty, closed⟩ := tag?_eq_some found
    have fewer : rest.length ≤ fuel.length := by
      have shorter : 0 < tag.length := List.length_pos_iff.mpr nonempty
      rw [spelled, List.length_append, List.length_cons] at enough
      omega
    obtain ⟨out, same, tail⟩ := ih fewer
    obtain ⟨out', same', redirected⟩ := redirectTag_redirected tag [] (Nat.le_refl _) closed
    refine ⟨out' ++ out, ?_, spelled ▸ redirected rest out tail⟩
    simp only [found]
    rw [same, same']
    simp
  | case2 acc _ fuel c r noTag ih =>
    obtain ⟨out, same, tail⟩ := ih (by simpa using enough)
    exact ⟨c :: out, by simp [noTag, same], tail.cons c⟩
  | case3 fuel acc cs done =>
    cases cs with
    | nil => exact ⟨[], by simp, .nil⟩
    | cons c r =>
      cases fuel with
      | nil => cases enough
      | cons d fuel => exact absurd rfl (done d fuel c r rfl)

/-- A template with its references redirected is one in the sense of the relation. -/
theorem redirected_redirectAll (t : String) : Redirected t.toList (redirectAll t).toList := by
  obtain ⟨out, same, redirected⟩ := redirectFrom_redirected t.toList [] (Nat.le_refl _)
  rw [redirectAll, same, String.toList_ofList]
  exact redirected

end DataVariables

end Promptry.Template
