import Mathlib.Data.List.Forall2
import Promptry.Proofs.Template.Alike.Literal

/-!
Arguments with references redirected. As many are read, by the same names, and each stays valid.
Main statements: `arguments_alike`, `readArguments_alike` and `readCall?_alike`.
-/

namespace Promptry.Template

variable {cs cs' r r' : List Char}

/-! ### Validity -/

/-- Arguments that stay valid one by one. -/
abbrev AllStayValid : Arguments → Arguments → Prop :=
  List.Forall₂ fun a b => StaysValid a.2 b.2

theorem AllStayValid.firstInvalidIn? {args args' : Arguments} (all : AllStayValid args args')
    (valid : firstInvalidIn? args = none) : firstInvalidIn? args' = none := by
  induction all with
  | nil => rfl
  | cons one _ ih =>
    rw [Template.firstInvalidIn?, Option.orElse_eq_or, Option.or_eq_none_iff] at valid
    rw [Template.firstInvalidIn?, one valid.1, ih valid.2]
    rfl

theorem AllStayValid.call {args args' : Arguments} (all : AllStayValid args args') (e e' : Expr) :
    StaysValid (.call e args) (.call e' args') := by
  intro valid
  rw [Expr.firstInvalid?] at valid ⊢
  exact all.firstInvalidIn? valid

theorem AllStayValid.isEmpty_eq {args args' : Arguments} (all : AllStayValid args args') :
    args'.isEmpty = args.isEmpty := by
  cases all <;> rfl

theorem staysValid_path (p p' : Path) : StaysValid (.path p) (.path p') := by
  intro
  rw [Expr.firstInvalid?] <;> nofun

/-- The arguments taken off two texts, as many as there are. -/
structure TakesArguments (cs cs' : List Char) (p p' : Arguments × List Char) : Prop where
  left : Leaves cs cs' p.2 p'.2
  stay : AllStayValid p.1 p'.1

/-! ### Parts of arguments -/

theorem reserved_of_ne (ne : ∀ r, cs ≠ ['a', 's'] ++ r)
    (ne' : ∀ r, cs ≠ ['e', 'l', 's', 'e'] ++ r) :
    reserved cs = false := by
  rw [reserved.eq_def]
  split
  · next r => exact absurd rfl (ne r)
  · next r => exact absurd rfl (ne' r)
  · rfl

theorem reserved_eq (h : Redirected cs cs') : reserved cs' = reserved cs := by
  rcases h.prefix_cases ['a', 's'] (by decide) with ⟨r, r', rfl, rfl, rest⟩ | ⟨ne, ne'⟩
  · exact endsWord_eq (Leaves.skipGap rest).rest
  · rcases h.prefix_cases ['e', 'l', 's', 'e'] (by decide) with
      ⟨r, r', rfl, rfl, rest⟩ | ⟨other, other'⟩
    · exact endsWord_eq (Leaves.skipGap rest).rest
    · rw [reserved_of_ne ne other, reserved_of_ne ne' other']

theorem namedKey?_eq (cs : List Char) : namedKey? cs =
    (word? cs).bind fun (k, r) => (before? '=' k r).map fun (k, r) => (k, skipGap r) := by
  rw [namedKey?]
  cases word? cs with
  | none => rfl
  | some found =>
    obtain ⟨k, r⟩ := found
    simp only [Option.bind_some]
    split
    · next s mark => rw [before?_of_cons k mark, Option.map_some]
    · next ne => rw [before?_of_ne k ne, Option.map_none]

theorem namedKey?_alike (h : Redirected cs cs') :
    ReadsAlike Eq cs cs' (namedKey? cs) (namedKey? cs') := by
  rw [namedKey?_eq, namedKey?_eq]
  exact (word?_alike h).bind fun _ _ _ _ same left _ =>
    .behind left (before?_alike (by decide) same left.rest).skipGap

theorem simpleArgument?_alike (h : Redirected cs cs') :
    ReadsAlike StaysValid cs cs' (simpleArgument? cs) (simpleArgument? cs') :=
  (literal?_alike h).orElse <|
    (path?_alike h).map fun _ _ _ _ _ => ⟨rfl, rfl, staysValid_path _ _⟩

theorem closeCall?_eq (e : Expr) (cs : List Char) : closeCall? e cs = before? ')' e cs := by
  rw [closeCall?]
  split
  · next s mark => rw [before?_of_cons e mark]
  · next ne => rw [before?_of_ne e ne]

theorem closeCall?_alike {e e' : Expr} (stays : StaysValid e e') (h : Redirected cs cs') :
    ReadsAlike StaysValid cs cs' (closeCall? e cs) (closeCall? e' cs') := by
  rw [closeCall?_eq, closeCall?_eq]
  exact before?_alike (by decide) stays h

/-! ### Arguments -/

/-- An argument is read alike with fuel that is enough. -/
def ArgumentAlike (fuel : List Char) : Prop :=
  ∀ ⦃fuel' cs cs'⦄, Redirected cs cs' → cs.length ≤ fuel.length → cs'.length ≤ fuel'.length →
    ReadsAlike StaysValid cs cs' (argument? fuel cs) (argument? fuel' cs')

/-- Arguments are read alike with fuel that is enough. -/
def ArgumentsAlike (fuel : List Char) : Prop :=
  ∀ ⦃fuel' acc acc' cs cs'⦄, Redirected cs cs' → cs.length < fuel.length →
    cs'.length < fuel'.length → AllStayValid acc acc' →
      TakesArguments cs cs' (arguments fuel acc cs) (arguments fuel' acc' cs')

theorem argument?_nil (fuel : List Char) : argument? fuel [] = none := by
  cases fuel with
  | nil => rw [argument?]
  | cons =>
    rw [argument?.eq_def]
    simp [reserved, simpleArgument?, literal?_eq, measureLiteral_nil, path?, currentMark, rootStep,
      loopStep, upSteps, keyName?, word?]

/-- A name with arguments in parentheses, behind the opening one. -/
def namedCall? (fuel cs : List Char) : Option (Expr × List Char) :=
  match word? cs with
  | none => none
  | some (name, r) =>
    let (args, rest) := arguments fuel [] r
    if args.isEmpty then none else some (.call (.word name) args.reverse, rest)

/-- A call behind its opening parenthesis. -/
def parenthesized? (fuel cs : List Char) : Option (Expr × List Char) :=
  match namedCall? fuel cs with
  | some (e, rest) => closeCall? e rest
  | none => (path? cs).bind fun (p, rest) => closeCall? (.call (.path p) []) rest

/-- A call as an argument. -/
def callArgument? (fuel cs : List Char) : Option (Expr × List Char) :=
  match cs with
  | '(' :: r => parenthesized? fuel (skipGap r)
  | _ => none

theorem callArgument?_of_ne (fuel : List Char) (ne : ∀ r, cs ≠ '(' :: r) :
    callArgument? fuel cs = none := by
  rw [callArgument?.eq_def]
  split
  · next r => exact absurd rfl (ne r)
  · rfl

theorem argument?_cons (c : Char) (fuel cs : List Char) :
    argument? (c :: fuel) cs = if reserved cs then none else
      (simpleArgument? cs).orElse fun _ => callArgument? fuel cs := by
  rw [argument?.eq_def]
  rfl

/-- A named argument, or one that goes by its place, in front of those in `acc`. -/
def anyArgument? (fuel : List Char) (acc : Arguments) (cs : List Char) :
    Option (Arguments × List Char) :=
  ((namedKey? cs).bind fun (k, r) =>
    (argument? fuel r).map fun (e, rest) => ((some k, e) :: acc, rest)).orElse fun _ =>
  (argument? fuel cs).map fun (e, rest) => ((none, e) :: acc, rest)

theorem arguments_cons (c : Char) (fuel : List Char) (acc : Arguments) (cs : List Char) :
    arguments (c :: fuel) acc cs = match anyArgument? fuel acc (skipGap cs) with
      | some (acc, rest) => arguments fuel acc rest
      | none => (acc, cs) := by
  rw [arguments, anyArgument?]
  cases namedKey? (skipGap cs) <;> rfl

section

variable {fuel : List Char}

theorem ArgumentsAlike.namedCall? (alike : ArgumentsAlike fuel) {fuel' : List Char}
    (h : Redirected cs cs') (enough : cs.length ≤ fuel.length)
    (enough' : cs'.length ≤ fuel'.length) :
    ReadsAlike StaysValid cs cs' (namedCall? fuel cs) (Template.namedCall? fuel' cs') := by
  rcases (word?_alike h).cases with ⟨none, none'⟩ | ⟨k, k', r, r', word, word', same, left, shorter⟩
  · rw [Template.namedCall?, Template.namedCall?, none, none']
    exact .refused
  · have shorter' := left.length_lt' shorter
    obtain ⟨behind, stay⟩ : TakesArguments r r' (arguments fuel [] r) (arguments fuel' [] r') :=
      alike left.rest (by omega) (by omega) .nil
    simp only [Template.namedCall?, word, word', stay.isEmpty_eq]
    split
    · exact .refused
    · exact .read (AllStayValid.call (List.rel_reverse stay) _ _) (left.trans behind)
        (Nat.lt_of_le_of_lt behind.length_le shorter)

theorem ArgumentsAlike.parenthesized? (alike : ArgumentsAlike fuel) {fuel' : List Char}
    (h : Redirected cs cs') (enough : cs.length ≤ fuel.length)
    (enough' : cs'.length ≤ fuel'.length) :
    ReadsAlike StaysValid cs cs' (parenthesized? fuel cs) (Template.parenthesized? fuel' cs') := by
  rcases (alike.namedCall? h enough enough').cases with
    ⟨none, none'⟩ | ⟨e, e', r, r', call, call', stays, left, -⟩
  · rw [Template.parenthesized?, Template.parenthesized?, none, none']
    exact (path?_alike h).bind fun p p' r r' _ left _ =>
      .behind left (closeCall?_alike (AllStayValid.call .nil _ _) left.rest)
  · rw [Template.parenthesized?, Template.parenthesized?, call, call']
    exact .behind left (closeCall?_alike stays left.rest)

theorem ArgumentAlike.anyArgument? (alike : ArgumentAlike fuel) {fuel' : List Char}
    {acc acc' : Arguments} (h : Redirected cs cs') (enough : cs.length ≤ fuel.length)
    (enough' : cs'.length ≤ fuel'.length) (stay : AllStayValid acc acc') :
    ReadsAlike AllStayValid cs cs' (anyArgument? fuel acc cs)
      (Template.anyArgument? fuel' acc' cs') := by
  refine TakesAlike.orElse ((namedKey?_alike h).bind fun k k' r r' _ left shorter => ?_) ?_
  · have shorter' := left.length_lt' shorter
    exact .behind left ((alike left.rest (by omega) (by omega)).map fun _ _ _ _ stays =>
      ⟨rfl, rfl, .cons stays stay⟩)
  · exact (alike h enough enough').map fun _ _ _ _ stays => ⟨rfl, rfl, .cons stays stay⟩

theorem ArgumentsAlike.argument (alike : ArgumentsAlike fuel) (c : Char) :
    ArgumentAlike (c :: fuel) := by
  intro fuel' cs cs' h enough enough'
  cases fuel' with
  | nil =>
    obtain rfl := List.eq_nil_of_length_eq_zero (Nat.le_zero.mp enough')
    obtain rfl := h.eq_nil_iff.mp rfl
    rw [argument?_nil, argument?_nil]
    exact .refused
  | cons c' fuel' =>
    rw [argument?_cons, argument?_cons, reserved_eq h]
    split
    · exact .refused
    · refine (simpleArgument?_alike h).orElse ?_
      rcases h.head_cases '(' (by decide) with ⟨r, r', rfl, rfl, rest⟩ | ⟨ne, ne'⟩
      · have gap := Leaves.skipGap rest
        exact .behind ((Leaves.tail rest).trans gap) (alike.parenthesized? gap.rest
          (Nat.le_trans gap.length_le (Nat.le_of_succ_le_succ enough))
          (Nat.le_trans gap.length_le' (Nat.le_of_succ_le_succ enough')))
      · rw [callArgument?_of_ne fuel ne, callArgument?_of_ne fuel' ne']
        exact .refused

theorem ArgumentAlike.arguments (argument : ArgumentAlike fuel) (alike : ArgumentsAlike fuel)
    (c : Char) : ArgumentsAlike (c :: fuel) := by
  intro fuel' acc acc' cs cs' h enough enough' stay
  cases fuel' with
  | nil => cases enough'
  | cons c' fuel' =>
    rw [arguments_cons, arguments_cons]
    have gap := Leaves.skipGap h
    have less := gap.length_le
    have less' := gap.length_le'
    simp only [List.length_cons] at enough enough'
    have next : ReadsAlike AllStayValid _ _ _ (Template.anyArgument? fuel' acc' (skipGap cs')) :=
      argument.anyArgument? gap.rest (by omega) (by omega) stay
    rcases next.cases with
      ⟨none, none'⟩ | ⟨more, more', r, r', found, found', stay', left, shorter⟩
    · rw [none, none']
      exact ⟨.refl h, stay⟩
    · rw [found, found']
      have shorter' := left.length_lt' shorter
      obtain ⟨behind, all⟩ : TakesArguments r r' (Template.arguments fuel more r)
          (Template.arguments fuel' more' r') := alike left.rest (by omega) (by omega) stay'
      exact ⟨gap.trans (left.trans behind), all⟩

end

theorem arguments_alike (fuel : List Char) : ArgumentAlike fuel ∧ ArgumentsAlike fuel := by
  induction fuel with
  | nil =>
    refine ⟨fun fuel' cs cs' h enough _ => ?_, fun _ _ _ _ _ _ enough => absurd enough (by simp)⟩
    obtain rfl := List.eq_nil_of_length_eq_zero (Nat.le_zero.mp enough)
    obtain rfl := h.eq_nil_iff.mpr rfl
    rw [argument?_nil, argument?_nil]
    exact .refused
  | cons c fuel ih => exact ⟨ih.2.argument c, ih.1.arguments ih.2 c⟩

/-- As many arguments are read, and they stay valid. -/
theorem readArguments_alike (h : Redirected cs cs') :
    TakesArguments cs cs' (readArguments cs) (readArguments cs') := by
  obtain ⟨left, stay⟩ : TakesArguments cs cs' (arguments (' ' :: cs) [] cs)
      (arguments (' ' :: cs') [] cs') :=
    (arguments_alike (' ' :: cs)).2 h (Nat.lt_succ_self _) (Nat.lt_succ_self _) .nil
  exact ⟨left, List.rel_reverse stay⟩

theorem readCall?_of_ne (ne : ∀ r, cs ≠ '(' :: r) : readCall? cs = none := by
  rw [readCall?.eq_def]
  split
  · next r => exact absurd rfl (ne r)
  · rfl

theorem readCall?_alike (h : Redirected cs cs') :
    ReadsAlike StaysValid cs cs' (readCall? cs) (readCall? cs') := by
  rcases h.head_cases '(' (by decide) with ⟨r, r', rfl, rfl, rest⟩ | ⟨ne, ne'⟩
  · exact (arguments_alike _).1 h (Nat.le_refl _) (Nat.le_refl _)
  · rw [readCall?_of_ne ne, readCall?_of_ne ne']
    exact .refused

end Promptry.Template
