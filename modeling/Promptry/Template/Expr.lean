import Promptry.Template.Path
import Promptry.Json.Reader

/-!
Expressions inside a tag: paths, JSON literals, calls in parentheses, and the words that name
helpers, decorators and partials. A literal in single quotes stands for the same text in double
quotes; any other literal must be JSON, and one that only looks like it is kept as `invalid` so that
it can be reported with its text.
-/

namespace Promptry.Template

inductive Expr where
  | word (text : String)
  | path (p : Path)
  | literal (value : Json)
  | invalid (text : String)
  /-- A call of `head`; an argument has a name or goes by its place. -/
  | call (head : Expr) (args : List (Option String × Expr))
  deriving Repr

/-! ### Literals

A literal is first measured: each function gives the number of characters taken, on top of `n`
taken before, and the rest. -/

/-- A measured part of a text. -/
abbrev Measured := Option (Nat × List Char)

/-- A string behind its opening quote `q`: any character but the quote and the backslash, or one of
the JSON escapes. -/
def measureQuoted (q : Char) (n : Nat) : List Char → Measured
  | [] => none
  | '\\' :: 'u' :: a :: b :: c :: d :: r =>
      if (Json.hexFour? a b c d).isSome then measureQuoted q (n + 6) r else none
  | '\\' :: c :: r =>
      if c == q || c == '\\' || c == '/' || c == 'b' || c == 'f' || c == 'n' || c == 'r' || c == 't'
      then measureQuoted q (n + 2) r else none
  | c :: r =>
      if c == q then some (n + 1, r) else if c == '\\' then none else measureQuoted q (n + 1) r

def measureString (n : Nat) : List Char → Measured
  | '"' :: r => measureQuoted '"' (n + 1) r
  | '\'' :: r => measureQuoted '\'' (n + 1) r
  | _ => none

/-- What must not follow a number or a keyword. -/
def endsWord (cs : List Char) : Bool :=
  match cs with
  | c :: _ => !isSymbol c
  | [] => true

/-- Takes the characters in front for which `p` holds. -/
def measureWhile (p : Char → Bool) (n : Nat) (cs : List Char) : Nat × List Char :=
  (n + (cs.takeWhile p).length, cs.dropWhile p)

/-- Takes one character if it is `c`. -/
def measureChar (c : Char) (n : Nat) (cs : List Char) : Nat × List Char :=
  match cs with
  | d :: r => if d == c then (n + 1, r) else (n, cs)
  | [] => (n, [])

def measureNumber (n : Nat) (cs : List Char) : Measured :=
  let (n, cs) := measureChar '-' n cs
  match cs.takeWhile Char.isDigit with
  | [] => none
  | _ =>
    let (n, r) := measureWhile Char.isDigit n cs
    let (n, r) := measureChar '.' n r
    let (n, r) := measureWhile Char.isDigit n r
    let (n, r) := match r with
      | 'E' :: e =>
          let (m, e) := measureChar '-' (n + 1) e
          if (e.takeWhile Char.isDigit).isEmpty then (n, r) else measureWhile Char.isDigit m e
      | _ => (n, r)
    if endsWord r then some (n, r) else none

def measureKeyword (w : List Char) (n : Nat) (cs : List Char) : Measured :=
  let r := cs.drop w.length
  if w.isPrefixOf cs && endsWord r then some (n + w.length, r) else none

mutual

/-- A literal at the head of the text. `fuel` is a text at least as long as the one that is read. -/
def measureLiteral (fuel : List Char) (n : Nat) (cs : List Char) : Measured :=
  match fuel with
  | [] => none
  | _ :: fuel =>
    (measureString n cs).orElse fun _ =>
    (match cs with
      | '[' :: r =>
          let (n, r) := measureWhile isGap (n + 1) r
          let (n, r) := (measureLiteral fuel n r).getD (n, r)
          measureItems fuel n r
      | '\x7b' :: r =>
          let (n, r) := measureWhile isGap (n + 1) r
          let (n, r) := (measureMember fuel n r).getD (n, r)
          measureMembers fuel n r
      | _ => none : Measured).orElse fun _ =>
    (measureNumber n cs).orElse fun _ =>
    (measureKeyword ['n', 'u', 'l', 'l'] n cs).orElse fun _ =>
    (measureKeyword ['t', 'r', 'u', 'e'] n cs).orElse fun _ =>
    measureKeyword ['f', 'a', 'l', 's', 'e'] n cs

/-- The items behind the first one, up to the closing bracket. -/
def measureItems (fuel : List Char) (n : Nat) (cs : List Char) : Measured :=
  match fuel with
  | [] => none
  | _ :: fuel =>
    match measureWhile isGap n cs with
    | (n, ',' :: r) =>
        let (n, r) := measureWhile isGap (n + 1) r
        (measureLiteral fuel n r).bind fun (n, r) => measureItems fuel n r
    | (n, ']' :: r) => some (n + 1, r)
    | _ => none

/-- A key, a colon and a literal. -/
def measureMember (fuel : List Char) (n : Nat) (cs : List Char) : Measured :=
  match fuel with
  | [] => none
  | _ :: fuel =>
    match measureString n cs with
    | none => none
    | some (n, r) =>
      match measureWhile isGap n r with
      | (n, ':' :: r) =>
          let (n, r) := measureWhile isGap (n + 1) r
          measureLiteral fuel n r
      | _ => none

/-- The members behind the first one, up to the closing brace. -/
def measureMembers (fuel : List Char) (n : Nat) (cs : List Char) : Measured :=
  match fuel with
  | [] => none
  | _ :: fuel =>
    match measureWhile isGap n cs with
    | (n, ',' :: r) =>
        let (n, r) := measureWhile isGap (n + 1) r
        (measureMember fuel n r).bind fun (n, r) => measureMembers fuel n r
    | (n, '\x7d' :: r) => some (n + 1, r)
    | _ => none

end

/-- The inside of a single-quoted text as the inside of a double-quoted one. -/
def requote : List Char → List Char
  | '\\' :: '\'' :: r => '\'' :: requote r
  | '"' :: r => '\\' :: '"' :: requote r
  | c :: r => c :: requote r
  | [] => []

/-- The JSON text of a literal. -/
def literalText (cs : List Char) : List Char :=
  match cs with
  | '\'' :: r => '"' :: requote r.dropLast ++ ['"']
  | _ => cs

def literal? : Reader Expr := fun cs =>
  match measureLiteral cs 0 cs with
  | none => none
  | some (n, rest) =>
    let written := cs.take n
    some (match Json.ofChars? (literalText written) with
      | some v => .literal v
      | none => .invalid (String.ofList written), rest)

/-! ### Arguments -/

/-- Whether `as` or `else` stands at the head, and no name goes on behind it. -/
def reserved (cs : List Char) : Bool :=
  match cs with
  | 'a' :: 's' :: r => endsWord (skipGap r)
  | 'e' :: 'l' :: 's' :: 'e' :: r => endsWord (skipGap r)
  | _ => false

/-- The arguments of a call as written, each with its name if it has one. -/
abbrev Arguments := List (Option String × Expr)

namespace Arguments

/-- Sets a named argument; the last one of a name counts. -/
def setNamed (named : List (String × Expr)) (key : String) (e : Expr) : List (String × Expr) :=
  match named with
  | [] => [(key, e)]
  | (k, v) :: rest => if k = key then (k, e) :: rest else (k, v) :: setNamed rest key e

/-- The named arguments, each name once. -/
def named (args : Arguments) : List (String × Expr) :=
  args.foldl (fun acc (name, e) => match name with
    | some k => setNamed acc k e
    | none => acc) []

end Arguments

/-- A name and an equals sign. -/
def namedKey? : Reader String := fun cs =>
  match word? cs with
  | none => none
  | some (k, r) =>
    match skipGap r with
    | '=' :: r => some (k, skipGap r)
    | _ => none

/-- A literal or a path. -/
def simpleArgument? : Reader Expr := fun cs =>
  (literal? cs).orElse fun _ => (path? cs).map fun (p, r) => (.path p, r)

/-- The end of a call in parentheses. -/
def closeCall? (e : Expr) (cs : List Char) : Option (Expr × List Char) :=
  match skipGap cs with
  | ')' :: rest => some (e, rest)
  | _ => none

mutual

/-- An argument at the head of the text: a literal, a path, or a call in parentheses, which is a
name with arguments or a path. `fuel` is a text at least as long as the one that is read. -/
def argument? (fuel : List Char) (cs : List Char) : Option (Expr × List Char) :=
  match fuel with
  | [] => none
  | _ :: fuel =>
    if reserved cs then none
    else
      (simpleArgument? cs).orElse fun _ =>
      match cs with
      | '(' :: r =>
        let r := skipGap r
        let named : Option (Expr × List Char) := match word? r with
          | none => none
          | some (name, r) =>
            let (args, rest) := arguments fuel [] r
            if args.isEmpty then none else some (.call (.word name) args.reverse, rest)
        match named with
        | some (e, rest) => closeCall? e rest
        | none => (path? r).bind fun (p, rest) => closeCall? (.call (.path p) []) rest
      | _ => none

/-- The arguments at the head of the text, as many as there are, on top of those in `acc`, last
first. `fuel` is longer than the text. -/
def arguments (fuel : List Char) (acc : Arguments) (cs : List Char) : Arguments × List Char :=
  match fuel with
  | [] => (acc, cs)
  | _ :: fuel =>
    let r := skipGap cs
    let named : Option (Arguments × List Char) := match namedKey? r with
      | some (k, r) => (argument? fuel r).map fun (e, rest) => ((some k, e) :: acc, rest)
      | none => none
    let next := named.orElse fun _ =>
      (argument? fuel r).map fun (e, rest) => ((none, e) :: acc, rest)
    match next with
    | some (acc, rest) => arguments fuel acc rest
    | none => (acc, cs)

end

/-- The arguments at the head of a text. -/
def readArguments (cs : List Char) : Arguments × List Char :=
  let (args, rest) := arguments (' ' :: cs) [] cs
  (args.reverse, rest)

/-- A call in parentheses at the head of a text. -/
def readCall? : Reader Expr := fun cs =>
  match cs with
  | '(' :: _ => argument? cs cs
  | _ => none

mutual

/-- The text of the first literal that is not JSON. -/
def Expr.firstInvalid? : Expr → Option String
  | .invalid text => some text
  | .call _ args => firstInvalidIn? args
  | _ => none

def firstInvalidIn? : List (Option String × Expr) → Option String
  | [] => none
  | (_, e) :: rest => e.firstInvalid?.orElse fun _ => firstInvalidIn? rest

end

end Promptry.Template
