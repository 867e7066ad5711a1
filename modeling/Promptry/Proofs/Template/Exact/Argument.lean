import Promptry.Proofs.Template.Alike.Argument
import Promptry.Proofs.Template.Exact.Literal
import Promptry.Proofs.Template.Exact.Path

/-!
Arguments with references redirected, exactly. What is read does not depend on the fuel, so calls
and arguments are first told by readers without; then each argument is read as the one in which the
paths are redirected. Main statements: `fuelFree`, `moreArguments_eq` and `readArguments_follows`.
-/

namespace Promptry.Template

variable {cs r s : List Char}

/-! ### Redirected expressions -/

mutual

/-- An expression with the paths in it redirected. -/
def Expr.redirect : Expr → Expr
  | .path p => .path p.redirect
  | .call head args => .call head.redirect (redirectIn args)
  | e => e

def redirectIn : Arguments → Arguments
  | [] => []
  | (name, e) :: args => (name, e.redirect) :: redirectIn args

end

mutual

/-- An expression with tidy paths only. A word may be a name in quotes, in which a backslash means
one thing to the search and another one to the template language. -/
def Expr.isTidy : Expr → Bool
  | .word text => !text.toList.contains '\\'
  | .path p => p.isTidy
  | .call head args => head.isTidy && tidyIn args
  | _ => true

def tidyIn : Arguments → Bool
  | [] => true
  | (_, e) :: args => e.isTidy && tidyIn args

end

theorem redirect_word (w : String) : (Expr.word w).redirect = .word w := by
  rw [Expr.redirect] <;> nofun

theorem redirect_path (p : Path) : (Expr.path p).redirect = .path p.redirect := by
  rw [Expr.redirect]

theorem isTidy_path (p : Path) : (Expr.path p).isTidy = p.isTidy := by rw [Expr.isTidy]

theorem isTidy_call (e : Expr) (args : Arguments) :
    (Expr.call e args).isTidy = (e.isTidy && tidyIn args) := by rw [Expr.isTidy]

theorem redirectIn_eq (args : Arguments) :
    redirectIn args = args.map fun a => (a.1, a.2.redirect) := by
  induction args with
  | nil => rw [redirectIn, List.map_nil]
  | cons a args ih => rw [redirectIn, ih, List.map_cons]

theorem tidyIn_eq (args : Arguments) : tidyIn args = args.all fun a => a.2.isTidy := by
  induction args with
  | nil => rw [tidyIn, List.all_nil]
  | cons a args ih => rw [tidyIn, ih, List.all_cons]

theorem isEmpty_redirectIn (args : Arguments) : (redirectIn args).isEmpty = args.isEmpty := by
  rw [redirectIn_eq, List.isEmpty_map]

theorem redirectIn_reverse (args : Arguments) :
    redirectIn args.reverse = (redirectIn args).reverse := by
  rw [redirectIn_eq, redirectIn_eq, List.map_reverse]

/-! ### Fuel -/

/-- With fuel that is enough, what is read does not depend on it. -/
structure FuelFree (fuel : List Char) : Prop where
  argument : ∀ ⦃fuel' cs⦄, cs.length ≤ fuel.length → cs.length ≤ fuel'.length →
    argument? fuel cs = argument? fuel' cs
  arguments : ∀ ⦃fuel' acc cs⦄, cs.length < fuel.length → cs.length < fuel'.length →
    arguments fuel acc cs = arguments fuel' acc cs

theorem word?_shorter {w : String} (read : word? cs = some (w, r)) : r.length < cs.length :=
  (word?_alike (.refl cs)).shorter read

theorem skipGap_length (cs : List Char) : (skipGap cs).length ≤ cs.length :=
  (skipGap_suffix cs).length_le

theorem FuelFree.callArgument? {fuel fuel' : List Char} (free : FuelFree fuel)
    (enough : cs.length ≤ fuel.length + 1) (enough' : cs.length ≤ fuel'.length + 1) :
    callArgument? fuel cs = Template.callArgument? fuel' cs := by
  rw [Template.callArgument?.eq_def, Template.callArgument?.eq_def]
  split
  · next r =>
    have less := skipGap_length r
    simp only [List.length_cons, Nat.add_le_add_iff_right] at enough enough'
    have named : namedCall? fuel (skipGap r) = namedCall? fuel' (skipGap r) := by
      rw [namedCall?, namedCall?]
      cases word : word? (skipGap r) with
      | none => rfl
      | some found =>
        have shorter := word?_shorter word
        have room : found.2.length < fuel.length := by omega
        have room' : found.2.length < fuel'.length := by omega
        simp only [free.arguments room room']
    rw [parenthesized?, parenthesized?, named]
  · rfl

theorem namedKey?_suffix {k : String} (read : namedKey? cs = some (k, r)) : r <:+ cs :=
  (namedKey?_alike (.refl cs)).suffix read

theorem anyArgument?_shorter {fuel : List Char} {acc more : Arguments}
    (enough : cs.length ≤ fuel.length) (found : anyArgument? fuel acc cs = some (more, r)) :
    r.length < cs.length :=
  ((arguments_alike fuel).1.anyArgument? (.refl cs) enough enough
    (List.forall₂_same.mpr fun _ _ => id)).shorter found

theorem FuelFree.cons {fuel : List Char} (free : FuelFree fuel) (c : Char) :
    FuelFree (c :: fuel) := by
  have argument : ∀ ⦃fuel' cs⦄, cs.length ≤ (c :: fuel).length → cs.length ≤ fuel'.length →
      argument? (c :: fuel) cs = argument? fuel' cs := by
    intro fuel' cs enough enough'
    cases fuel' with
    | nil =>
      obtain rfl := List.eq_nil_of_length_eq_zero (Nat.le_zero.mp enough')
      rw [argument?_nil, argument?_nil]
    | cons c' fuel' => rw [argument?_cons, argument?_cons, free.callArgument? enough enough']
  refine ⟨argument, fun fuel' acc cs enough enough' => ?_⟩
  cases fuel' with
  | nil => cases enough'
  | cons c' fuel' =>
    simp only [List.length_cons] at enough enough'
    have less := skipGap_length cs
    have here : argument? fuel (skipGap cs) = argument? fuel' (skipGap cs) :=
      free.argument (by omega) (by omega)
    have next : anyArgument? fuel acc (skipGap cs) = anyArgument? fuel' acc (skipGap cs) := by
      rw [anyArgument?, anyArgument?, here]
      cases key : namedKey? (skipGap cs) with
      | none => rfl
      | some found =>
        have fewer := (namedKey?_suffix key).length_le
        simp only [Option.bind_some]
        have room : found.2.length ≤ fuel.length := by omega
        have room' : found.2.length ≤ fuel'.length := by omega
        rw [free.argument room room']
    rw [arguments_cons, arguments_cons, next]
    split
    · next more rest found =>
      have shorter := anyArgument?_shorter (by omega) found
      exact free.arguments (by omega) (by omega)
    · rfl

theorem fuelFree (fuel : List Char) : FuelFree fuel := by
  induction fuel with
  | nil =>
    refine ⟨fun fuel' cs enough _ => ?_, fun _ _ _ enough => absurd enough (Nat.not_lt_zero _)⟩
    obtain rfl := List.eq_nil_of_length_eq_zero (Nat.le_zero.mp enough)
    rw [argument?_nil, argument?_nil]
  | cons c fuel ih => exact ih.cons c

/-! ### Readers without fuel -/

/-- An argument at the head of a text. -/
def argumentAt? : Reader Expr := fun cs => argument? cs cs

/-- The arguments at the head of a text, in front of those in `acc`, last first. -/
def moreArguments (acc : Arguments) (cs : List Char) : Arguments × List Char :=
  arguments (' ' :: cs) acc cs

/-- A named argument. -/
def namedAt? : Reader (Option String × Expr) := fun cs =>
  (namedKey? cs).bind fun (k, r) => (argumentAt? r).map fun (e, rest) => ((some k, e), rest)

/-- An argument with its name, if it has one. -/
def pairAt? : Reader (Option String × Expr) := fun cs =>
  (namedAt? cs).orElse fun _ => (argumentAt? cs).map fun (e, rest) => ((none, e), rest)

/-- A name with arguments, at least one. -/
def called? : Reader (String × Arguments) := fun cs =>
  (word? cs).bind fun (name, r) =>
    if (readArguments r).1.isEmpty then none
    else some ((name, (readArguments r).1), (readArguments r).2)

/-- A call behind its opening parenthesis. -/
def callAt? : Reader Expr := fun cs =>
  match called? cs with
  | some ((name, args), rest) => closeCall? (.call (.word name) args) rest
  | none => (path? cs).bind fun (p, rest) => closeCall? (.call (.path p) []) rest

/-- A call with its parentheses. -/
def parenAt? : Reader Expr := fun cs =>
  match cs with
  | '(' :: r => callAt? (skipGap r)
  | _ => none

theorem parenAt?_of_ne (ne : ∀ r, cs ≠ '(' :: r) : parenAt? cs = none := by
  rw [parenAt?.eq_def]
  split
  · next r => exact absurd rfl (ne r)
  · rfl

theorem namedCall?_eq {fuel : List Char} (enough : cs.length ≤ fuel.length) :
    namedCall? fuel cs =
      (called? cs).map fun ((name, args), r) => (.call (.word name) args, r) := by
  rw [namedCall?, called?]
  cases word : word? cs with
  | none => rfl
  | some found =>
    obtain ⟨name, s⟩ := found
    have shorter := word?_shorter word
    have same : arguments fuel [] s = arguments (' ' :: s) [] s :=
      (fuelFree fuel).arguments (by omega) (by simp)
    simp only [same, readArguments, Option.bind_some, List.isEmpty_reverse]
    split <;> rfl

theorem parenthesized?_eq {fuel : List Char} (enough : cs.length ≤ fuel.length) :
    parenthesized? fuel cs = callAt? cs := by
  rw [parenthesized?, namedCall?_eq enough, callAt?]
  cases called? cs <;> rfl

theorem argumentAt?_eq (cs : List Char) : argumentAt? cs =
    if reserved cs then none else (simpleArgument? cs).orElse fun _ => parenAt? cs := by
  cases cs with
  | nil =>
    have none : simpleArgument? [] = none := by
      simp [simpleArgument?, literal?_eq, measureLiteral_nil, path?, currentMark, rootStep,
        loopStep, upSteps, keyName?, word?]
    rw [argumentAt?, argument?_nil, none]
    rfl
  | cons c fuel =>
    have paren : callArgument? fuel (c :: fuel) = parenAt? (c :: fuel) := by
      by_cases opens : c = '('
      · subst opens
        exact parenthesized?_eq (skipGap_length fuel)
      · have ne : ∀ r, c :: fuel ≠ '(' :: r := fun r same => opens (List.cons.inj same).1
        rw [callArgument?_of_ne fuel ne, parenAt?_of_ne ne]
    rw [argumentAt?, argument?_cons, paren]

theorem anyArgument?_eq (acc : Arguments) (enough : s.length ≤ cs.length) :
    anyArgument? cs acc s = (pairAt? s).map fun (a, rest) => (a :: acc, rest) := by
  have free {t : List Char} (less : t.length ≤ s.length) : argument? cs t = argumentAt? t :=
    (fuelFree cs).argument (Nat.le_trans less enough) (Nat.le_refl _)
  rw [anyArgument?, pairAt?, namedAt?, free (Nat.le_refl _)]
  cases key : namedKey? s with
  | none => cases argumentAt? s <;> rfl
  | some found =>
    obtain ⟨k, t⟩ := found
    simp only [Option.bind_some, free (namedKey?_suffix key).length_le]
    cases argumentAt? t with
    | none => cases argumentAt? s <;> rfl
    | some found => rfl

theorem moreArguments_eq (acc : Arguments) (cs : List Char) :
    moreArguments acc cs = match pairAt? (skipGap cs) with
      | some (a, rest) => moreArguments (a :: acc) rest
      | none => (acc, cs) := by
  have less := skipGap_length cs
  rw [moreArguments, arguments_cons, anyArgument?_eq acc less]
  cases found : pairAt? (skipGap cs) with
  | none => rfl
  | some p =>
    obtain ⟨a, rest⟩ := p
    have here : anyArgument? cs acc (skipGap cs) = some (a :: acc, rest) := by
      rw [anyArgument?_eq acc less, found]
      rfl
    have shorter := anyArgument?_shorter less here
    exact (fuelFree cs).arguments (by omega) (by simp)

/-! ### Parts of arguments -/

section

variable {strict : Prop}

theorem isBare_of_isSymbol {c : Char} (symbol : isSymbol c = true) : isBare c = true := by
  have ne {d : Char} (other : isSymbol d = false) : c ≠ d := by
    rintro rfl
    rw [other] at symbol
    cases symbol
  exact isBare_iff.mpr ⟨ne (by decide), ne (by decide), ne (by decide)⟩

theorem word?_symbols {w : String} (read : word? cs = some (w, r)) :
    w.toList.all isSymbol = true := by
  rw [word?] at read
  split at read
  · cases read
  · cases read
    rw [String.toList_ofList]
    exact List.all_takeWhile

theorem word?_passed {w : String} (read : word? cs = some (w, r)) : Passed cs r := by
  rw [word?_spells read]
  exact .bare (List.all_eq_true.mpr fun c mem =>
    isBare_of_isSymbol (List.all_eq_true.mp (word?_symbols read) c mem)) r

theorem word?_follows {w : String} (read : word? cs = some (w, r)) : Follows strict word? cs w r :=
  .of_passed (fun _ h => word?_alike h) read (word?_passed read)

theorem before?_passed {α : Type} {mark : Char} (bare : isBare mark = true) {a b : α}
    (found : before? mark a cs = some (b, r)) : Passed cs r := by
  have passed := Passed.gap cs
  rw [(before?_eq_some found).2] at passed
  exact passed.trans (.tail bare r)

theorem namedKey?_follows {k : String} (read : namedKey? cs = some (k, r)) :
    Follows strict namedKey? cs k r := by
  refine .of_passed (fun _ h => namedKey?_alike h) read ?_
  rw [namedKey?_eq] at read
  obtain ⟨⟨name, s⟩, word, behind⟩ := Option.bind_eq_some_iff.mp read
  obtain ⟨⟨name', t⟩, mark, same⟩ := Option.map_eq_some_iff.mp behind
  cases same
  exact (word?_passed word).trans ((before?_passed (by decide) mark).trans (.gap t))

theorem literal?_redirect {e : Expr} (read : literal? cs = some (e, r)) : e.redirect = e := by
  rw [literal?_eq] at read
  obtain ⟨p, -, same⟩ := Option.map_eq_some_iff.mp read
  obtain ⟨rfl, -⟩ := Prod.mk.inj same
  cases Json.ofChars? (literalText (cs.take p.1)) <;> rw [Expr.redirect] <;> nofun

theorem simpleArgument?_follows {e : Expr} (read : simpleArgument? cs = some (e, r))
    (tame : Tame strict cs r (e.isTidy = true)) :
    Follows strict simpleArgument? cs e.redirect r := by
  rw [simpleArgument?] at read
  cases literal : literal? cs with
  | some found =>
    rw [literal] at read
    cases read
    rw [literal?_redirect literal]
    exact (literal?_follows literal).orElse_left
  | none =>
    rw [literal] at read
    obtain ⟨⟨p, s⟩, path, same⟩ := Option.map_eq_some_iff.mp read
    cases same
    have tidy : Tame strict cs r (p.isTidy = true) := tame.imp fun tidy => by
      rwa [Expr.isTidy] at tidy
    refine .orElse_right (fun _ h => literal?_alike h) literal
      ((path?_follows path tidy).map fun r => ?_)
    rw [Expr.redirect]

theorem closeCall?_follows {e f : Expr} (read : closeCall? e cs = some (f, r)) (e' : Expr) :
    Follows strict (closeCall? e') cs e' r := by
  rw [closeCall?_eq] at read
  exact (Follows.before? (by decide) (before?_eq_some read).2 e').of_eq (closeCall?_eq e')

/-! ### Arguments -/

/-- The arguments at the head of a text as long as that are read as the redirected ones. -/
def ArgumentsFollow (strict : Prop) (n : Nat) : Prop :=
  ∀ ⦃acc args cs r⦄, cs.length ≤ n → moreArguments acc cs = (args, r) →
    Tame strict cs r (tidyIn args = true) →
      Follows strict (fun cs => some (moreArguments (redirectIn acc) cs)) cs (redirectIn args) r

/-- An argument at the head of a text as long as that is read as the redirected one. -/
def ArgumentFollows (strict : Prop) (n : Nat) : Prop :=
  ∀ ⦃e cs r⦄, cs.length ≤ n → argumentAt? cs = some (e, r) → Tame strict cs r (e.isTidy = true) →
    Follows strict argumentAt? cs e.redirect r

theorem tidyIn_reverse (args : Arguments) : tidyIn args.reverse = tidyIn args := by
  rw [tidyIn_eq, tidyIn_eq, List.all_reverse]

theorem ArgumentsFollow.read {n : Nat} (follow : ArgumentsFollow strict n) {args : Arguments}
    (short : cs.length ≤ n) (read : readArguments cs = (args, r))
    (tame : Tame strict cs r (tidyIn args = true)) :
    Follows strict (fun cs => some (readArguments cs)) cs (redirectIn args) r := by
  have more : moreArguments [] cs = (args.reverse, r) := by
    rw [← (Prod.mk.inj read).1, ← (Prod.mk.inj read).2, List.reverse_reverse]
    rfl
  rw [← tidyIn_reverse] at tame
  have follows := follow short more tame
  rw [redirectIn_reverse, redirectIn] at follows
  have reversed : Follows strict
      (fun cs => (some (moreArguments [] cs)).map fun p => (p.1.reverse, p.2)) cs (redirectIn args)
      r := follows.map fun r => by rw [List.reverse_reverse]
  exact reversed.of_eq fun _ => rfl

theorem called?_eq (cs : List Char) : called? cs = (word? cs).bind fun (name, r) =>
    (some (readArguments r)).bind fun (args, r) =>
      if args.isEmpty then none else some ((name, args), r) := rfl

theorem readArguments_suffix {args : Arguments} (read : readArguments cs = (args, r)) :
    r <:+ cs := by
  obtain ⟨⟨-, w, -, spelled, -, -⟩, -⟩ := readArguments_alike (.refl cs)
  rw [read] at spelled
  exact ⟨w, spelled.symm⟩

theorem ArgumentsFollow.called {n : Nat} (follow : ArgumentsFollow strict n) {name : String}
    {args : Arguments} (short : cs.length ≤ n + 1) (read : called? cs = some ((name, args), r))
    (tame : Tame strict cs r (tidyIn args = true)) :
    Follows strict called? cs (name, redirectIn args) r := by
  rw [called?_eq] at read
  obtain ⟨⟨name', s⟩, word, behind⟩ := Option.bind_eq_some_iff.mp read
  obtain ⟨⟨args', t⟩, arguments, last⟩ := Option.bind_eq_some_iff.mp behind
  dsimp only at last
  split at last
  · cases last
  · next nonempty =>
    cases last
    have arguments := Option.some.inj arguments
    have shorter := word?_shorter word
    have tame' := (tame.split ((word?_alike (.refl cs)).suffix word)
      (readArguments_suffix arguments)).2
    refine ((word?_follows word).bind ((follow.read (by omega) arguments tame').bind ?_)).of_eq
      called?_eq
    simp only [isEmpty_redirectIn, nonempty]
    exact follows_some _ _

theorem called?_alike {cs' : List Char} (h : Redirected cs cs') :
    ReadsAlike (fun a b => AllStayValid a.2 b.2) cs cs' (called? cs) (called? cs') := by
  refine (word?_alike h).bind fun k k' r r' _ left shorter => ?_
  obtain ⟨behind, stay⟩ := readArguments_alike left.rest
  simp only [stay.isEmpty_eq]
  split
  · exact .refused
  · exact .read stay (left.trans behind) (Nat.lt_of_le_of_lt behind.length_le shorter)

theorem callAt?_alike {cs' : List Char} (h : Redirected cs cs') :
    ReadsAlike StaysValid cs cs' (callAt? cs) (callAt? cs') := by
  rw [← parenthesized?_eq (Nat.le_refl cs.length), ← parenthesized?_eq (Nat.le_refl cs'.length)]
  exact (arguments_alike cs).2.parenthesized? h (Nat.le_refl _) (Nat.le_refl _)

theorem ArgumentsFollow.callAt {n : Nat} (follow : ArgumentsFollow strict n) {e : Expr}
    (short : cs.length ≤ n + 1) (read : callAt? cs = some (e, r))
    (tame : Tame strict cs r (e.isTidy = true)) : Follows strict callAt? cs e.redirect r := by
  rw [callAt?] at read
  cases call : called? cs with
  | some found =>
    obtain ⟨⟨name, args⟩, s⟩ := found
    rw [call] at read
    dsimp only at read
    obtain ⟨rfl, -⟩ := before?_eq_some ((closeCall?_eq _ _).symm.trans read)
    have behind := (closeCall?_alike (fun _ => by assumption) (.refl s)).suffix read
    have tidy := (tame.split ((called?_alike (.refl cs)).suffix call) behind).1
    rw [isTidy_call, Bool.and_eq_true] at tidy
    rw [Expr.redirect, redirect_word]
    have both : Follows strict (fun cs => (called? cs).bind fun ((name, args), r) =>
        closeCall? (.call (.word name) args) r) cs (.call (.word name) (redirectIn args)) r :=
      (follow.called short call (tidy.imp And.right)).bind (closeCall?_follows read _)
    refine both.imp fun cs r found => ?_
    obtain ⟨⟨⟨name, args⟩, s⟩, call, close⟩ := Option.bind_eq_some_iff.mp found
    rw [callAt?, call]
    exact close
  | none =>
    rw [call] at read
    obtain ⟨⟨p, s⟩, path, close⟩ := Option.bind_eq_some_iff.mp read
    dsimp only at close
    obtain ⟨rfl, -⟩ := before?_eq_some ((closeCall?_eq _ _).symm.trans close)
    have behind := (closeCall?_alike (fun _ => by assumption) (.refl s)).suffix close
    have tidy := (tame.split ((path?_alike (.refl cs)).suffix path) behind).1
    rw [isTidy_call, isTidy_path, Bool.and_eq_true] at tidy
    rw [Expr.redirect, redirect_path, redirectIn]
    have both : Follows strict (fun cs => (path? cs).bind fun (p, r) =>
        closeCall? (.call (.path p) []) r) cs (.call (.path p.redirect) []) r :=
      (path?_follows path (tidy.imp And.left)).bind (closeCall?_follows close _)
    refine both.congr fun cs' h => ?_
    have uncalled := called?_alike h
    rw [call] at uncalled
    rw [callAt?, uncalled.eq_none]

theorem ArgumentsFollow.parenAt {n : Nat} (follow : ArgumentsFollow strict n) {e : Expr}
    (short : cs.length ≤ n + 1) (read : parenAt? cs = some (e, r))
    (tame : Tame strict cs r (e.isTidy = true)) : Follows strict parenAt? cs e.redirect r := by
  by_cases opens : ∃ s, cs = '(' :: s
  · obtain ⟨s, rfl⟩ := opens
    have less := skipGap_length s
    have behind := (callAt?_alike (.refl _)).suffix read
    have tidy := (tame.split ((skipGap_suffix s).trans (List.suffix_cons _ _)) behind).2
    rw [List.length_cons] at short
    have follows := follow.callAt (by omega) read tidy
    exact (follows.gap fun _ => rfl).cons (by decide) fun _ => rfl
  · rw [parenAt?_of_ne fun s same => opens ⟨s, same⟩] at read
    cases read

theorem ArgumentsFollow.argument {n : Nat} (follow : ArgumentsFollow strict n) :
    ArgumentFollows strict (n + 1) := by
  intro e cs r short read tame
  rw [argumentAt?_eq] at read
  split at read
  · cases read
  · next passes =>
    suffices either : Follows strict (fun cs => (simpleArgument? cs).orElse fun _ => parenAt? cs)
        cs e.redirect r from
      either.congr fun cs' h => by rw [argumentAt?_eq, reserved_eq h, if_neg passes]
    cases simple : simpleArgument? cs with
    | some found =>
      rw [simple] at read
      cases read
      exact (simpleArgument?_follows simple tame).orElse_left
    | none =>
      rw [simple] at read
      exact .orElse_right (fun _ h => simpleArgument?_alike h) simple
        (follow.parenAt short read tame)

theorem argumentAt?_alike {cs' : List Char} (h : Redirected cs cs') :
    ReadsAlike StaysValid cs cs' (argumentAt? cs) (argumentAt? cs') :=
  (arguments_alike cs).1 h (Nat.le_refl _) (Nat.le_refl _)

theorem namedAt?_alike {cs' : List Char} (h : Redirected cs cs') :
    ReadsAlike (fun _ _ => True) cs cs' (namedAt? cs) (namedAt? cs') :=
  (namedKey?_alike h).bind fun _ _ _ _ _ left _ =>
    .behind left ((argumentAt?_alike left.rest).map fun _ _ _ _ _ => ⟨rfl, rfl, trivial⟩)

theorem pairAt?_alike {cs' : List Char} (h : Redirected cs cs') :
    ReadsAlike (fun _ _ => True) cs cs' (pairAt? cs) (pairAt? cs') :=
  (namedAt?_alike h).orElse
    ((argumentAt?_alike h).map fun _ _ _ _ _ => ⟨rfl, rfl, trivial⟩)

theorem ArgumentFollows.pair {n : Nat} (follow : ArgumentFollows strict n)
    {a : Option String × Expr} (short : cs.length ≤ n) (read : pairAt? cs = some (a, r))
    (tame : Tame strict cs r (a.2.isTidy = true)) :
    Follows strict pairAt? cs (a.1, a.2.redirect) r := by
  rw [pairAt?] at read
  cases named : namedAt? cs with
  | some found =>
    rw [named] at read
    cases read
    obtain ⟨⟨k, s⟩, key, behind⟩ := Option.bind_eq_some_iff.mp named
    obtain ⟨⟨e, t⟩, argument, same⟩ := Option.map_eq_some_iff.mp behind
    cases same
    have front := namedKey?_suffix key
    have tidy := (tame.split front ((argumentAt?_alike (.refl s)).suffix argument)).2
    have value : Follows strict
        (fun s => (argumentAt? s).map fun (e, rest) => ((some k, e), rest)) s
        (some k, e.redirect) r :=
      (follow (Nat.le_trans front.length_le short) argument tidy).map fun _ => rfl
    exact ((namedKey?_follows key).bind value).orElse_left
  | none =>
    rw [named] at read
    obtain ⟨⟨e, t⟩, argument, same⟩ := Option.map_eq_some_iff.mp read
    cases same
    exact .orElse_right (fun _ h => namedAt?_alike h) named
      ((follow short argument tame).map fun _ => rfl)

/-- The arguments read before are kept. -/
theorem moreArguments_acc {cs : List Char} {acc args : Arguments}
    (read : moreArguments acc cs = (args, r)) : acc <:+ args ∧ r <:+ cs := by
  rw [moreArguments_eq] at read
  cases found : pairAt? (skipGap cs) with
  | none =>
    rw [found] at read
    cases read
    exact ⟨List.suffix_rfl, List.suffix_rfl⟩
  | some p =>
    obtain ⟨a, s⟩ := p
    rw [found] at read
    have shorter := Nat.lt_of_lt_of_le ((pairAt?_alike (.refl _)).shorter found) (skipGap_length cs)
    have front := (pairAt?_alike (.refl _)).suffix found
    obtain ⟨kept, behind⟩ := moreArguments_acc read
    exact ⟨(List.suffix_cons a acc).trans kept, behind.trans (front.trans (skipGap_suffix cs))⟩
termination_by cs.length

theorem ArgumentFollows.arguments {n : Nat} (argument : ArgumentFollows strict n)
    (follow : ∀ m < n, ArgumentsFollow strict m) : ArgumentsFollow strict n := by
  intro acc args cs r short read tame
  rw [moreArguments_eq] at read
  have gap := skipGap_suffix cs
  cases found : pairAt? (skipGap cs) with
  | none =>
    rw [found] at read
    cases read
    intro r' tail
    have reads := pairAt?_alike (Leaves.skipGap tail).rest
    rw [found] at reads
    exact ⟨r', .done, by simp only [moreArguments_eq, reads.eq_none]⟩
  | some p =>
    obtain ⟨a, s⟩ := p
    rw [found] at read
    dsimp only at read
    have shorter := (pairAt?_alike (.refl _)).shorter found
    have front := (pairAt?_alike (.refl _)).suffix found
    have less := gap.length_le
    obtain ⟨kept, behind⟩ := moreArguments_acc read
    obtain ⟨tame₁, tame₂⟩ := tame.split (front.trans gap) behind
    have tidy : Tame strict (skipGap cs) s (a.2.isTidy = true) :=
      (tame₁.split gap front).2.imp fun tidy => by
        rw [tidyIn_eq, List.all_eq_true] at tidy
        exact tidy a (kept.subset List.mem_cons_self)
    have first := argument.pair (Nat.le_trans less short) found tidy
    have others := follow s.length (by omega) (Nat.le_refl _) read tame₂
    rw [redirectIn] at others
    have both : Follows strict (fun cs => (pairAt? cs).bind fun (b, rest) =>
        some (moreArguments (b :: redirectIn acc) rest)) (skipGap cs) (redirectIn args) r :=
      first.bind others
    refine (both.gap fun _ => rfl).imp fun cs r found => ?_
    obtain ⟨⟨b, rest⟩, one, more⟩ := Option.bind_eq_some_iff.mp found
    rw [moreArguments_eq, one]
    exact more

theorem arguments_follow (n : Nat) : ArgumentsFollow strict n := by
  induction n using Nat.strong_induction_on with
  | h n ih =>
    refine ArgumentFollows.arguments ?_ ih
    cases n with
    | zero =>
      intro e cs r short read
      obtain rfl := List.eq_nil_of_length_eq_zero (Nat.le_zero.mp short)
      rw [argumentAt?, argument?_nil] at read
      cases read
    | succ n => exact (ih n (Nat.lt_succ_self n)).argument

/-- Arguments are read as the redirected ones. -/
theorem readArguments_follows {args : Arguments} (read : readArguments cs = (args, r))
    (tame : Tame strict cs r (tidyIn args = true)) :
    Follows strict (fun cs => some (readArguments cs)) cs (redirectIn args) r :=
  (arguments_follow cs.length).read (Nat.le_refl _) read tame

theorem called?_follows {name : String} {args : Arguments}
    (read : called? cs = some ((name, args), r)) (tame : Tame strict cs r (tidyIn args = true)) :
    Follows strict called? cs (name, redirectIn args) r :=
  (arguments_follow cs.length).called (Nat.le_succ _) read tame

/-- A call in parentheses is read as the redirected one. -/
theorem readCall?_follows {e : Expr} (read : readCall? cs = some (e, r))
    (tame : Tame strict cs r (e.isTidy = true)) : Follows strict readCall? cs e.redirect r := by
  by_cases opens : ∃ s, cs = '(' :: s
  · obtain ⟨s, rfl⟩ := opens
    have follow : ArgumentsFollow strict s.length := arguments_follow s.length
    intro r' tail
    obtain ⟨cs', scanned, found⟩ := follow.argument (Nat.le_refl _) read tame tail
    obtain ⟨s', rfl, -⟩ := (scanned.redirected tail).of_cons (by decide)
    exact ⟨'(' :: s', scanned, found⟩
  · rw [readCall?_of_ne fun s same => opens ⟨s, same⟩] at read
    cases read

end

end Promptry.Template
