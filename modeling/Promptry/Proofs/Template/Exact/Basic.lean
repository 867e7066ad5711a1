import Mathlib.Data.List.DropRight
import Promptry.Proofs.Template.Alike.Basic
import Promptry.Proofs.Template.Search

/-!
Readers on a template and on what the search for references makes of it. A stretch of a tag is
scanned as the search does it if quotes come in whole literals only; what a reader then reads off
both texts is told exactly, not only up to what was put in. It is told from behind: whatever is made
of the rest, the stretch in front can be scanned so that the answer is the expected one. Main
statements: `TakesAlike.rest_eq`, `Scanned.scanTag` and `Follows.bind`.
-/

namespace Promptry.Template

open DataVariables

variable {cs cs' ds r r' s s' w w' : List Char}

/-! ### What is left -/

namespace Spliced

variable {allowed : List Char → Prop}

theorem count_at (h : Spliced allowed cs cs') : cs'.count '@' = cs.count '@' := by
  induction h with
  | nil => rfl
  | cons c _ ih => rw [List.count_cons, List.count_cons, ih]
  | splice _ _ ih =>
    have none : redirection.count '@' = 0 := by decide
    rw [List.count_cons, List.count_cons, List.count_append, none, ih, Nat.zero_add]

/-- Where the same stretch was taken off, the same is left. -/
theorem rest_unique {w'' r'' : List Char} (taken : Renamed w w') (taken' : Renamed w w'')
    (tail : Redirected r r') (tail' : Redirected r r'') (same : w' ++ r' = w'' ++ r'') :
    r' = r'' := by
  -- what the longer stretch has more holds no at sign, and so no part of it can be left
  have longer {v v' t t' : List Char} (front : Renamed w v) (front' : Renamed w v')
      (behind : Redirected r t) (behind' : Redirected r t') {x : List Char} (more : v' = v ++ x)
      (rest : t = x ++ t') : t = t' := by
    have free : ∀ c ∈ x, (c != '@') = true := by
      have counts := front'.count_at.trans front.count_at.symm
      rw [more, List.count_append, Nat.add_eq_left, List.count_eq_zero] at counts
      exact fun c mem => by simpa using fun at' : c = '@' => counts (at' ▸ mem)
    have heads := (behind.takeWhile_eq (p := (· != '@')) rfl).trans
      (behind'.takeWhile_eq (p := (· != '@')) rfl).symm
    rw [rest, List.takeWhile_append_of_pos free, List.append_left_eq_self] at heads
    rw [rest, heads, List.nil_append]
  rcases List.append_eq_append_iff.mp same with ⟨x, more, rest⟩ | ⟨x, more, rest⟩
  · exact longer taken taken' tail tail' more rest
  · exact (longer taken' taken tail' tail more rest).symm

end Spliced

/-- Where the rest alone was changed, the rest alone of what is left is. -/
theorem Leaves.rest_eq (left : Leaves (w ++ r) (w ++ r') s s') (suffix : r <:+ s)
    (tail : Redirected r r') : ∃ v, s = v ++ r ∧ s' = v ++ r' := by
  obtain ⟨v, rfl⟩ := suffix
  obtain ⟨rest, u, u', spelled, spelled', taken⟩ := left
  rw [← List.append_assoc] at spelled
  obtain rfl := List.append_cancel_right spelled
  rw [List.append_assoc] at spelled'
  exact ⟨v, rfl, (Spliced.rest_unique (.refl u) taken (tail.prepend v) rest spelled').symm⟩

namespace TakesAlike

variable {α β : Type} {alike : α × List Char → β × List Char → Prop} {a : α}
  {o : Option (β × List Char)}

theorem eq_none (reads : TakesAlike alike cs cs' none o) : o = none := by
  cases reads
  rfl

/-- What is left of the second text is told by the stretch that is taken off. -/
theorem rest_eq (reads : TakesAlike alike (w ++ r) (w' ++ r') (some (a, r)) o)
    (taken : Renamed w w') (tail : Redirected r r') :
    ∃ b, o = some (b, r') ∧ alike (a, r) (b, r') := by
  cases reads with
  | read same left =>
    obtain ⟨rest, v, v', spelled, spelled', taken'⟩ := left
    obtain rfl := List.append_cancel_right spelled
    obtain rfl := Spliced.rest_unique taken taken' tail rest spelled'
    exact ⟨_, rfl, same⟩

end TakesAlike

/-! ### What is scanned -/

/-- No at sign and no quote. -/
def isBare (c : Char) : Bool := c != '@' && c != '"' && c != '\''

theorem isBare_iff {c : Char} : isBare c = true ↔ c ≠ '@' ∧ c ≠ '"' ∧ c ≠ '\'' := by
  simp [isBare, and_assoc]

/-- Scanning a stretch of a tag, with `r` left of the text and `r'` of what is made of it. If it is
`strict`, no quotes stand outside of literals. -/
inductive Scanned (strict : Prop) (r r' : List Char) : List Char → List Char → Prop
  | done : Scanned strict r r' r r'
  | char {c : Char} {cs cs' : List Char} (ne : c ≠ '@') (bare : strict → isBare c = true)
      (rest : Scanned strict r r' cs cs') : Scanned strict r r' (c :: cs) (c :: cs')
  | literal {w cs cs' : List Char} (found : DataVariables.literal? (w ++ cs) = some (w, cs))
      (rest : Scanned strict r r' cs cs') : Scanned strict r r' (w ++ cs) (w ++ cs')
  | own {cs cs' : List Char} (other : ¬ Foreign cs) (rest : Scanned strict r r' cs cs') :
      Scanned strict r r' ('@' :: cs) ('@' :: cs')
  | foreign {cs cs' : List Char} (here : Foreign cs) (rest : Scanned strict r r' cs cs') :
      Scanned strict r r' ('@' :: cs) ('@' :: (redirection ++ cs'))

namespace Scanned

variable {strict : Prop}

theorem redirected (tail : Redirected r r') (scanned : Scanned strict r r' cs cs') :
    Redirected cs cs' := by
  induction scanned with
  | done => exact tail
  | char _ _ _ ih => exact .cons _ ih
  | literal _ _ ih => exact ih.prepend _
  | own _ _ ih => exact .cons '@' ih
  | foreign here _ ih => exact .splice here ih

theorem trans (behind : Scanned strict r r' s s') (scanned : Scanned strict s s' cs cs') :
    Scanned strict r r' cs cs' := by
  induction scanned with
  | done => exact behind
  | char ne bare _ ih => exact .char ne bare ih
  | literal found _ ih => exact .literal found ih
  | own other _ ih => exact .own other ih
  | foreign here _ ih => exact .foreign here ih

/-- A stretch without at signs, and without quotes if these count. -/
theorem stretch (noAt : '@' ∉ w) (bare : strict → w.all isBare = true) (r r' : List Char) :
    Scanned strict r r' (w ++ r) (w ++ r') := by
  induction w with
  | nil => exact .done
  | cons c w ih =>
    obtain ⟨ne, noAt⟩ := List.ne_and_not_mem_of_not_mem_cons noAt
    have both (holds : strict) := Bool.and_eq_true_iff.mp (List.all_cons.symm.trans (bare holds))
    exact .char ne.symm (fun holds => (both holds).1) (ih noAt fun holds => (both holds).2)

theorem bare (bare : w.all isBare = true) (r r' : List Char) :
    Scanned strict r r' (w ++ r) (w ++ r') :=
  stretch (fun mem => absurd (List.all_eq_true.mp bare _ mem) (by decide)) (fun _ => bare) r r'

theorem suffix (scanned : Scanned strict r r' cs cs') : r <:+ cs := by
  induction scanned with
  | done => exact List.suffix_rfl
  | char _ _ _ ih => exact ih.trans (List.suffix_cons _ _)
  | literal _ _ ih => exact ih.trans (List.suffix_append _ _)
  | own _ _ ih => exact ih.trans (List.suffix_cons _ _)
  | foreign _ _ ih => exact ih.trans (List.suffix_cons _ _)

theorem ne_at (scanned : Scanned strict r r' cs cs') (spelled : '@' :: cs = w ++ r)
    (plain : '@' ∉ w) : False := by
  cases w with
  | nil =>
    have whole := scanned.suffix.length_le
    rw [← List.nil_append r, ← spelled, List.length_cons] at whole
    exact absurd whole (Nat.not_succ_le_self _)
  | cons c w => exact plain ((List.cons.inj spelled).1 ▸ List.mem_cons_self)

/-- Without at signs nothing is put in. -/
theorem of_not_mem (scanned : Scanned strict r r' cs cs') (spelled : cs = w ++ r)
    (plain : '@' ∉ w) : cs' = w ++ r' := by
  induction scanned generalizing w with
  | done =>
    obtain rfl := List.append_left_eq_self.mp spelled.symm
    rfl
  | @char c cs cs' _ _ rest ih =>
    cases w with
    | nil =>
      have whole := rest.suffix.length_le
      rw [← List.nil_append r, ← spelled, List.length_cons] at whole
      exact absurd whole (Nat.not_succ_le_self _)
    | cons d w =>
      obtain ⟨rfl, below⟩ := List.cons.inj spelled
      rw [ih below (List.not_mem_of_not_mem_cons plain), List.cons_append]
  | @literal v cs cs' found rest ih =>
    obtain ⟨u, rfl⟩ := rest.suffix
    rw [← List.append_assoc, List.append_cancel_right_eq] at spelled
    subst spelled
    rw [ih rfl fun mem => plain (List.mem_append_right v mem), List.append_assoc]
  | own _ rest => exact (rest.ne_at spelled plain).elim
  | foreign _ rest => exact (rest.ne_at spelled plain).elim

end Scanned

/-- Whether a reference is redirected is told by a stretch that holds all of its name. -/
theorem foreign_append_iff (ne : w ≠ [])
    (same : (w ++ r).takeWhile isNameChar = w.takeWhile isNameChar) :
    Foreign (w ++ r) ↔ Foreign w := by
  obtain ⟨d, v, rfl⟩ := List.exists_cons_of_ne_nil ne
  constructor
  · rintro ⟨⟨c, s, spelled, start⟩, other⟩
    obtain ⟨rfl, -⟩ := List.cons.inj spelled
    exact ⟨⟨_, _, rfl, start⟩, same ▸ other⟩
  · rintro ⟨⟨c, s, spelled, start⟩, other⟩
    obtain ⟨rfl, -⟩ := List.cons.inj spelled
    exact ⟨⟨_, _, rfl, start⟩, same.symm ▸ other⟩

theorem foreign_append_iff_of_closed (closed : EndsClosed ('@' :: w)) (r : List Char) :
    Foreign (w ++ r) ↔ Foreign w := by
  have ne : w ≠ [] := by
    rintro rfl
    exact absurd (closed '@' rfl) (by decide)
  exact foreign_append_iff ne ((closed.behind (w := ['@'])).takeWhile_append ne r)

/-- A tag and the closing braces behind it come out as the search has them. -/
theorem Scanned.scanTag {closes : List Char} (scanned : Scanned True r r' cs cs')
    (spelled : cs = w ++ (closes ++ r)) (closed : EndsClosed w)
    (braces : ∀ c ∈ closes, c = '\x7d') : cs' = DataVariables.scanTag w ++ (closes ++ r') := by
  have noAt : '@' ∉ closes := fun mem => absurd (braces _ mem) (by decide)
  induction scanned generalizing w with
  | done =>
    rw [← List.append_assoc] at spelled
    obtain ⟨rfl, rfl⟩ := List.append_eq_nil_iff.mp (List.append_left_eq_self.mp spelled.symm)
    rfl
  | @char c cs cs' ne bare rest ih =>
    cases w with
    | nil => exact (Scanned.char ne bare rest).of_not_mem spelled noAt
    | cons d w =>
      obtain ⟨rfl, below⟩ := List.cons.inj spelled
      obtain ⟨mark, double, single⟩ := isBare_iff.mp (bare trivial)
      rw [scanTag_of_ne double single mark, ih below (closed.behind (w := [c])), List.cons_append]
  | @literal v cs cs' found rest ih =>
    obtain ⟨others, last⟩ := literal?_append found
    obtain ⟨u, rfl⟩ := rest.suffix
    rw [← List.append_assoc, ← List.append_assoc, List.append_cancel_right_eq] at spelled
    -- a literal ends with a quote, so it does not reach over the end of the tag
    have inside : ∃ x, w = v ++ x ∧ u = x ++ closes := by
      rcases List.append_eq_append_iff.mp spelled with ⟨x, rfl, same⟩ | ⟨x, rfl, same⟩
      · exact ⟨x, rfl, same⟩
      · rcases List.eq_nil_or_concat x with rfl | ⟨y, c, rfl⟩
        · exact ⟨[], by simp, same.symm⟩
        · rw [braces c (by simp [same]), List.concat_eq_append, ← List.append_assoc,
            List.getLast?_concat] at last
          exact absurd rfl last
    obtain ⟨x, rfl, rfl⟩ := inside
    rw [scanTag_literal (others x), ih (List.append_assoc x closes r) closed.behind,
      List.append_assoc]
  | @own cs cs' other rest ih =>
    cases w with
    | nil => exact (rest.ne_at spelled noAt).elim
    | cons d w =>
      obtain ⟨rfl, rfl⟩ := List.cons.inj spelled
      have other' := mt (foreign_append_iff_of_closed closed (closes ++ r)).mpr other
      rw [scanTag_of_not_foreign other', ih rfl (closed.behind (w := ['@'])), List.cons_append]
  | @foreign cs cs' here rest ih =>
    cases w with
    | nil => exact (rest.ne_at spelled noAt).elim
    | cons d w =>
      obtain ⟨rfl, rfl⟩ := List.cons.inj spelled
      have here' := (foreign_append_iff_of_closed closed (closes ++ r)).mp here
      rw [scanTag_foreign here', ih rfl (closed.behind (w := ['@'])), List.cons_append,
        List.append_assoc]

/-! ### Conditions -/

/-- A condition on what is read off a text, which a stretch without at signs need not fulfil unless
the scan is strict. -/
def Tame (strict : Prop) (cs r : List Char) (holds : Prop) : Prop :=
  holds ∨ ¬ strict ∧ r.count '@' = cs.count '@'

namespace Tame

variable {strict holds holds' : Prop}

theorem imp (implied : holds → holds') (tame : Tame strict cs r holds) :
    Tame strict cs r holds' := tame.imp_left implied

theorem split (front : s <:+ cs) (behind : r <:+ s) (tame : Tame strict cs r holds) :
    Tame strict cs s holds ∧ Tame strict s r holds := by
  rcases tame with given | ⟨loose, none⟩
  · exact ⟨.inl given, .inl given⟩
  · have less := front.sublist.count_le '@'
    have less' := behind.sublist.count_le '@'
    exact ⟨.inr ⟨loose, by omega⟩, .inr ⟨loose, by omega⟩⟩

/-- Either the condition holds, or the stretch that is taken off holds no at sign. -/
theorem cases (tame : Tame strict (w ++ r) r holds) : holds ∨ ¬ strict ∧ '@' ∉ w := by
  refine tame.imp_right fun ⟨loose, same⟩ => ⟨loose, List.count_eq_zero.mp ?_⟩
  rw [List.count_append] at same
  omega

end Tame

/-! ### Readers that follow -/

variable {α β γ : Type} {strict : Prop} {read read' : Reader α} {a : α} {b : β}

/-- A reader that takes something off a text reads the answer off what is made of the text, whatever
is made of the rest. -/
def Follows (strict : Prop) (read : Reader α) (cs : List Char) (a : α) (r : List Char) : Prop :=
  ∀ ⦃r'⦄, Redirected r r' → ∃ cs', Scanned strict r r' cs cs' ∧ read cs' = some (a, r')

theorem follows_some (a : α) (cs : List Char) :
    Follows strict (fun cs => some (a, cs)) cs a cs := fun r' _ => ⟨r', .done, rfl⟩

namespace Follows

theorem imp (implied : ∀ ⦃cs r⦄, read cs = some (a, r) → read' cs = some (a, r))
    (follows : Follows strict read cs a r) : Follows strict read' cs a r := by
  intro r' tail
  obtain ⟨cs', scanned, found⟩ := follows tail
  exact ⟨cs', scanned, implied found⟩

/-- Readers that agree on what is made of the text. -/
theorem congr (agree : ∀ ⦃cs'⦄, Redirected cs cs' → read' cs' = read cs')
    (follows : Follows strict read cs a r) : Follows strict read' cs a r := by
  intro r' tail
  obtain ⟨cs', scanned, found⟩ := follows tail
  exact ⟨cs', scanned, (agree (scanned.redirected tail)).trans found⟩

theorem of_eq (same : ∀ cs, read' cs = read cs) (follows : Follows strict read cs a r) :
    Follows strict read' cs a r := follows.congr fun cs' _ => same cs'

/-- Behind some characters that the scan goes over. -/
theorem behind {p : List Char} (bare : p.all isBare = true)
    (same : ∀ ⦃s'⦄, Redirected s s' → read' (p ++ s') = read s')
    (follows : Follows strict read s a r) : Follows strict read' (p ++ s) a r := by
  intro r' tail
  obtain ⟨s', scanned, found⟩ := follows tail
  exact ⟨p ++ s', scanned.trans (.bare bare s s'), (same (scanned.redirected tail)).trans found⟩

theorem cons {c : Char} (bare : isBare c = true) (same : ∀ s', read' (c :: s') = read s')
    (follows : Follows strict read s a r) : Follows strict read' (c :: s) a r :=
  follows.behind (p := [c]) (by simp [bare]) fun s' _ => same s'

theorem map {f : α × List Char → β × List Char} (kept : ∀ r, f (a, r) = (b, r))
    (follows : Follows strict read cs a r) :
    Follows strict (fun cs => (read cs).map f) cs b r := by
  intro r' tail
  obtain ⟨cs', scanned, found⟩ := follows tail
  exact ⟨cs', scanned, by simp only [found, Option.map_some, kept]⟩

theorem bind {next : α × List Char → Option (β × List Char)} (first : Follows strict read cs a s)
    (second : Follows strict (fun s => next (a, s)) s b r) :
    Follows strict (fun cs => (read cs).bind next) cs b r := by
  intro r' tail
  obtain ⟨s', scanned', found'⟩ := second tail
  obtain ⟨cs', scanned, found⟩ := first (scanned'.redirected tail)
  exact ⟨cs', scanned'.trans scanned, by simp only [found, Option.bind_some, found']⟩

theorem orElse_left (follows : Follows strict read cs a r) :
    Follows strict (fun cs => (read cs).orElse fun _ => read' cs) cs a r := by
  intro r' tail
  obtain ⟨cs', scanned, found⟩ := follows tail
  exact ⟨cs', scanned, by simp only [found]; rfl⟩

/-- An alternative, where the first one is refused. -/
theorem orElse_right {alike : α × List Char → α × List Char → Prop}
    (reads : ∀ ⦃cs'⦄, Redirected cs cs' → TakesAlike alike cs cs' (read cs) (read cs'))
    (none : read cs = none) (follows : Follows strict read' cs a r) :
    Follows strict (fun cs => (read cs).orElse fun _ => read' cs) cs a r := by
  refine follows.congr fun cs' h => ?_
  have alike := reads h
  rw [none] at alike
  simp only [alike.eq_none]
  rfl

end Follows

/-- What is read off the same text is a part of it. -/
theorem TakesAlike.suffix {alike : α × List Char → α × List Char → Prop}
    {o : Option (α × List Char)} (reads : TakesAlike alike cs cs o o) (found : o = some (a, r)) :
    r <:+ cs := by
  subst found
  cases reads with
  | read _ left =>
    obtain ⟨-, w, w', -, spelled, -⟩ := left
    exact ⟨w', spelled.symm⟩

theorem TakesAlike.shorter {alike : α × List Char → α × List Char → Prop}
    {o : Option (α × List Char)} (reads : TakesAlike alike cs cs o o) (found : o = some (a, r)) :
    r.length < cs.length := by
  subst found
  cases reads with
  | read _ _ shorter => exact shorter

/-! ### Gaps -/

theorem isBare_of_isGap {c : Char} (gap : isGap c = true) : isBare c = true := by
  simp only [isGap, Bool.or_eq_true, beq_iff_eq] at gap
  rcases gap with ((rfl | rfl) | rfl) | rfl <;> decide

theorem skipGap_idem (cs : List Char) : skipGap (skipGap cs) = skipGap cs :=
  List.dropWhile_idempotent isGap cs

theorem skipGap_append (gap : w.all isGap = true) (cs : List Char) :
    skipGap (w ++ cs) = skipGap cs :=
  List.dropWhile_append_of_pos (List.all_eq_true.mp gap)

/-- Behind a gap. -/
theorem Follows.gap (follows : Follows strict read (skipGap cs) a r)
    (same : ∀ cs, read' cs = read (skipGap cs)) : Follows strict read' cs a r := by
  have all : (cs.takeWhile isGap).all isGap = true := List.all_takeWhile
  have bare : (cs.takeWhile isGap).all isBare = true :=
    List.all_eq_true.mpr fun c mem => isBare_of_isGap (List.all_eq_true.mp all c mem)
  have whole : cs.takeWhile isGap ++ skipGap cs = cs := List.takeWhile_append_dropWhile
  have behind : Follows strict read' (cs.takeWhile isGap ++ skipGap cs) a r := by
    refine follows.behind bare fun s' tail => ?_
    -- what is made of a text without a gap in front has none either
    have none : skipGap s' = s' := by
      have left := tail.takeWhile_eq (p := isGap) (by decide)
      have empty : (skipGap cs).takeWhile isGap = [] := by
        have both := List.takeWhile_append_dropWhile (p := isGap) (l := skipGap cs)
        rw [show (skipGap cs).dropWhile isGap = skipGap cs from skipGap_idem cs,
          List.append_left_eq_self] at both
        exact both
      have both := List.takeWhile_append_dropWhile (p := isGap) (l := s')
      rwa [left, empty, List.nil_append] at both
    rw [same, skipGap_append all, none]
  rwa [whole] at behind

theorem skipGap_suffix (cs : List Char) : skipGap cs <:+ cs := List.dropWhile_suffix isGap

theorem before?_eq_some {mark : Char} {a b : α} (found : before? mark a cs = some (b, r)) :
    b = a ∧ skipGap cs = mark :: r := by
  rw [before?] at found
  split at found
  · next head =>
    obtain ⟨s, same⟩ := List.head?_eq_some_iff.mp head
    rw [same] at found
    cases found
    exact ⟨rfl, same⟩
  · cases found

theorem Follows.before? {mark : Char} (bare : isBare mark = true)
    (follows : skipGap cs = mark :: r) (a : α) : Follows strict (before? mark a) cs a r := by
  suffices inside : Follows strict
      (fun cs => if cs.head? = some mark then some (a, cs.tail) else none) (skipGap cs) a r from
    inside.gap fun _ => rfl
  rw [follows]
  exact (follows_some a r).cons bare fun s' => by simp

/-! ### Stretches that stay -/

/-- What is taken off a text comes out as it is, scanned strictly or not. -/
def Passed (cs r : List Char) : Prop :=
  ∃ w, cs = w ++ r ∧ ∀ strict r', Scanned strict r r' (w ++ r) (w ++ r')

namespace Passed

theorem refl (cs : List Char) : Passed cs cs := ⟨[], rfl, fun _ _ => .done⟩

theorem suffix (passed : Passed cs r) : r <:+ cs := by
  obtain ⟨w, rfl, -⟩ := passed
  exact List.suffix_append w r

theorem trans (first : Passed cs s) (second : Passed s r) : Passed cs r := by
  obtain ⟨w, rfl, scanned⟩ := first
  obtain ⟨v, rfl, scanned'⟩ := second
  refine ⟨w ++ v, (List.append_assoc _ _ _).symm, fun strict r' => ?_⟩
  rw [List.append_assoc, List.append_assoc]
  exact (scanned' strict r').trans (scanned strict (v ++ r'))

theorem bare {w : List Char} (bare : w.all isBare = true) (r : List Char) : Passed (w ++ r) r :=
  ⟨w, rfl, fun _ r' => .bare bare r r'⟩

theorem tail {c : Char} (bare : isBare c = true) (r : List Char) : Passed (c :: r) r :=
  Passed.bare (w := [c]) (by simp [bare]) r

theorem dropWhile {p : Char → Bool} (bare : ∀ c, p c = true → isBare c = true) (cs : List Char) :
    Passed cs (cs.dropWhile p) := by
  have all : (cs.takeWhile p).all isBare = true :=
    List.all_eq_true.mpr fun c mem => bare c (List.mem_takeWhile_imp mem)
  have passed := Passed.bare all (cs.dropWhile p)
  rwa [List.takeWhile_append_dropWhile] at passed

theorem gap (cs : List Char) : Passed cs (skipGap cs) := dropWhile (fun _ => isBare_of_isGap) cs

end Passed

/-- What a reader that knows no redirection takes off, if the search goes over it. -/
theorem Follows.of_passed
    (reads : ∀ ⦃cs'⦄, Redirected cs cs' → ReadsAlike Eq cs cs' (read cs) (read cs'))
    (found : read cs = some (a, r)) (passed : Passed cs r) : Follows strict read cs a r := by
  intro r' tail
  obtain ⟨w, rfl, scanned⟩ := passed
  have alike := reads (tail.prepend w)
  rw [found] at alike
  obtain ⟨b, found', rfl⟩ := alike.rest_eq (.refl w) tail
  exact ⟨w ++ r', scanned strict r', found'⟩

end Promptry.Template
