import Promptry.Template.Expr

/-!
Tags, the parts of a template between double braces. A tilde behind the opening braces or before the
closing ones asks for the blanks on that side to be dropped. `readTag?` reads the tag at the head of
a text.
-/

namespace Promptry.Template

/-- A name with arguments, and names for what a block iterates over. -/
structure Head where
  name : String
  args : Arguments := []
  params : List String := []
  deriving Repr

inductive Content where
  /-- Shows a path or the answer of a call in parentheses. -/
  | value (e : Expr)
  /-- Shows the answer of a helper. -/
  | call (head : Head)
  | blockOpen (head : Head)
  /-- Ends a branch of a block and opens another block for the case that it is not taken. -/
  | chain (head : Head)
  /-- Ends a branch of a block and opens the last one. -/
  | otherwise
  | close (name : String)
  | decorator (head : Head)
  | decoratorOpen (head : Head)
  | inclusion (name : Expr) (args : Arguments)
  | inclusionOpen (name : Expr) (args : Arguments)
  | comment
  deriving Repr

structure Tag where
  content : Content
  trimsBefore : Bool := false
  trimsAfter : Bool := false
  deriving Repr

/-! ### Marks -/

/-- Takes a tilde if one follows. -/
def tilde (cs : List Char) : Bool × List Char :=
  match skipGap cs with
  | '~' :: r => (true, skipGap r)
  | r => (false, r)

/-- The end of a tag: whether it drops the blanks behind it. -/
def endTag? : Reader Bool := fun cs =>
  match tilde cs with
  | (trims, '\x7d' :: '\x7d' :: r) => some (trims, r)
  | _ => none

/-! ### Contents -/

/-- Names for what a block iterates over: `as |a|` or `as |a b|`. -/
def blockParams (cs : List Char) : List String × List Char :=
  let read : Option (List String × List Char) := do
    let r ← (match skipGap cs with
      | 'a' :: 's' :: r => some (skipGap r)
      | _ => none)
    let r ← (match r with
      | '|' :: r => some (skipGap r)
      | _ => none)
    let (a, r) ← word? r
    let (more, r) := match word? (skipGap r) with
      | some (b, r) => ([b], r)
      | none => ([], r)
    match skipGap r with
    | '|' :: r => some (a :: more, r)
    | _ => none
  read.getD ([], cs)

/-- A name, its arguments and its block parameters. -/
def head? : Reader Head := fun cs => do
  let (name, r) ← word? (skipGap cs)
  let (args, r) := readArguments r
  let (params, r) := blockParams r
  some (⟨name, args, params⟩, r)

/-- A call in parentheses or a path. -/
def reference? : Reader Expr := fun cs =>
  (readCall? cs).orElse fun _ => (path? cs).map fun (p, r) => (.path p, r)

/-- What a tag shows: a name with arguments, or a reference. -/
def shown? : Reader Content := fun cs =>
  let cs := skipGap cs
  let call : Option (Content × List Char) := match word? cs with
    | none => none
    | some (name, r) =>
      let (args, r) := readArguments r
      if args.isEmpty then none else some (.call ⟨name, args, []⟩, r)
  call.orElse fun _ => (reference? cs).map fun (e, r) => (.value e, r)

/-- The characters of names of partials. -/
def isPartialSymbol (c : Char) : Bool := isSymbol c || c == '/' || c == '.'

/-- The characters up to the closing quote `q`, which one behind a backslash does not count as. -/
def quotedName (q : Char) (acc : List Char) : List Char → Option (List Char × List Char)
  | [] => none
  | '\\' :: c :: r =>
      if c == q then quotedName q (c :: '\\' :: acc) r else quotedName q ('\\' :: acc) (c :: r)
  | c :: r => if c == q then some (acc.reverse, r) else quotedName q (c :: acc) r
termination_by cs => cs.length

/-- The name of a partial: a name with slashes and dots, or a quoted text, which keeps its
quotes. -/
def partialName? : Reader String := fun cs =>
  match cs.takeWhile isPartialSymbol with
  | [] =>
    match cs with
    | q :: r =>
      if q == '\'' || q == '"' then
        match quotedName q [] r with
        | some (c :: name, rest) => some (String.ofList (q :: c :: name ++ [q]), rest)
        | _ => none
      else none
    | [] => none
  | name => some (String.ofList name, cs.dropWhile isPartialSymbol)

/-- The name of a partial, or an expression for it, and arguments. -/
def inclusion? : Reader (Expr × Arguments) := fun cs => do
  let cs := skipGap cs
  let (name, r) ← ((partialName? cs).map fun (w, r) => (Expr.word w, r)).orElse fun _ =>
    reference? cs
  let (args, r) := readArguments r
  some ((name, args), r)

/-- The content of a tag behind its opening marks, without the end of the tag. -/
def content? : Reader Content := fun cs =>
  match cs with
  | '#' :: r =>
    match skipGap r with
    | '*' :: r => (head? r).map fun (h, r) => (.decoratorOpen h, r)
    | '>' :: r => (inclusion? r).map fun ((name, args), r) => (.inclusionOpen name args, r)
    | r => (head? r).map fun (h, r) => (.blockOpen h, r)
  | '/' :: r => (partialName? (skipGap r)).map fun (name, r) => (.close name, r)
  | '*' :: r => (head? r).map fun (h, r) => (.decorator h, r)
  | '>' :: r => (inclusion? r).map fun ((name, args), r) => (.inclusion name args, r)
  | '&' :: r => (reference? (skipGap r)).map fun (e, r) => (.value e, r)
  | '\x7b' :: r =>
    (shown? r).bind fun (c, r) =>
      match skipGap r with
      | '\x7d' :: r => some (c, r)
      | _ => none
  | cs => shown? cs

/-! ### Tags -/

/-- A tag that ends a branch of a block. -/
def branchTag? (trimsBefore : Bool) : Reader Tag := fun cs =>
  let rest : Option (List Char) := match cs with
    | 'e' :: 'l' :: 's' :: 'e' :: r => some r
    | '^' :: r => some r
    | _ => none
  rest.bind fun r =>
    match endTag? r with
    | some (after, r) => some (⟨.otherwise, trimsBefore, after⟩, r)
    | none => do
      let (h, r) ← head? r
      let (after, r) ← endTag? r
      some (⟨.chain h, trimsBefore, after⟩, r)

/-- The rest behind the first occurrence of `mark`. -/
def behind? (mark : List Char) : List Char → Option (List Char)
  | [] => if mark.isEmpty then some [] else none
  | c :: cs => if mark.isPrefixOf (c :: cs) then some ((c :: cs).drop mark.length)
      else behind? mark cs

/-- The rest behind a comment, from its exclamation mark on. The long form ends in `--`; where that
end is missing, the comment ends as a short one does. -/
def comment? (cs : List Char) : Option (List Char) :=
  let long : Option (List Char) := match skipGap cs with
    | '-' :: '-' :: r => behind? ['-', '-', '\x7d', '\x7d'] r
    | _ => none
  long.orElse fun _ => behind? ['\x7d', '\x7d'] cs

/-- Three braces, in which the tildes stand inside. -/
def tripleTag? : Reader Tag := fun cs => do
  let (before, r) := tilde cs
  let (c, r) ← shown? r
  match tilde r with
  | (after, '\x7d' :: '\x7d' :: '\x7d' :: r) => some (⟨c, before, after⟩, r)
  | _ => none

/-- The end of a tag with four braces. -/
def endRawTag? : Reader Bool := fun cs =>
  match tilde cs with
  | (trims, '\x7d' :: '\x7d' :: '\x7d' :: '\x7d' :: r) => some (trims, r)
  | _ => none

/-- The tag that opens a block whose inside is text. -/
def rawOpenTag? : Reader Tag := fun cs =>
  match cs with
  | '\x7b' :: '\x7b' :: '\x7b' :: '\x7b' :: r => do
      let (before, r) := tilde r
      let (h, r) ← head? r
      let (after, r) ← endRawTag? r
      some (⟨.blockOpen h, before, after⟩, r)
  | _ => none

/-- The tag that closes a block whose inside is text. -/
def rawCloseTag? : Reader Tag := fun cs =>
  match cs with
  | '\x7b' :: '\x7b' :: '\x7b' :: '\x7b' :: r => do
      let (before, r) := tilde r
      let r ← (match r with
        | '/' :: r => some (skipGap r)
        | _ => none)
      let (name, r) ← word? r
      let (after, r) ← endRawTag? r
      some (⟨.close name, before, after⟩, r)
  | _ => none

/-- The tag at the head of a text that starts with two opening braces, tags with four braces
aside. -/
def readTag? : Reader Tag := fun cs =>
  match cs with
  | '\x7b' :: '\x7b' :: r =>
    let (before, inner) := tilde r
    (branchTag? before inner).orElse fun _ =>
    let plain : Option (Tag × List Char) := do
      let (c, rest) ← content? inner
      let (after, rest) ← endTag? rest
      some (⟨c, before, after⟩, rest)
    plain.orElse fun _ =>
      match r with
      | '\x7b' :: r => tripleTag? r
      | _ =>
        match skipGap r with
        | '!' :: r => (comment? r).map fun rest => (⟨.comment, false, false⟩, rest)
        | _ => none
  | _ => none

end Promptry.Template
