import Promptry.Template.Piece
import Promptry.Text.Quoted

/-!
Compiled templates: texts and tags with the blocks put together. A template is malformed if a tag
is, or if its blocks do not nest; only then do invalid parameters and differing names of a block's
ends count, in the order of the text.
-/

namespace Promptry.Template

inductive Element where
  | text (s : String)
  /-- Shows the value of a path or a call. -/
  | value (e : Expr)
  | call (head : Head)
  /-- A block with the elements inside it and those for the case that it is not taken. -/
  | block (head : Head) (fresh : Bool) (body : List Element) (inverse : Option (List Element))
  | decorator (head : Head) (body : Option (List Element))
  | inclusion (name : Expr) (args : Arguments) (line : Line) (body : Option (List Element))
  deriving Repr

/-- Why a template does not compile. -/
inductive CompileError where
  | malformed
  | invalidParameter (text : String)
  | helperMismatch (opened closing : String)
  | decoratorMismatch (opened closing : String)
  deriving DecidableEq, Repr

def CompileError.message : CompileError → String
  | malformed => "invalid handlebars syntax"
  | invalidParameter text => "invalid parameter " ++ Text.quoted text
  | helperMismatch opened closing =>
      "helper " ++ Text.quoted opened ++ " was opened, but " ++ Text.quoted closing ++ " is closing"
  | decoratorMismatch opened closing =>
      "decorator " ++ Text.quoted opened ++ " was opened, but " ++ Text.quoted closing ++
        " is closing"

/-! ### Nesting -/

/-- A block that is open. -/
inductive Opened where
  | block
  /-- A block in its last branch. -/
  | lastBranch
  | decorator
  | inclusion
  deriving DecidableEq, Repr

/-- The open blocks behind a tag, if it may stand there. -/
def openedAfter? (opened : List Opened) (c : Content) : Option (List Opened) :=
  match c, opened with
  | .blockOpen _, _ => some (.block :: opened)
  | .decoratorOpen _, _ => some (.decorator :: opened)
  | .inclusionOpen _ _, _ => some (.inclusion :: opened)
  | .chain _, .block :: _ => some opened
  | .chain _, _ => none
  | .otherwise, .block :: rest => some (.lastBranch :: rest)
  | .otherwise, _ => none
  | .close _, .inclusion :: rest => some rest
  | .close name, _ :: rest => if name.toList.all isSymbol then some rest else none
  | .close _, [] => none
  | _, _ => some opened

/-- Whether all blocks opened are closed in turn. -/
def wellNested (opened : List Opened) : List Part → Bool
  | [] => opened.isEmpty
  | .text _ :: rest => wellNested opened rest
  | .tag c _ :: rest =>
      match openedAfter? opened c with
      | some opened => wellNested opened rest
      | none => false

/-! ### Putting together -/

/-- A branch of a block. -/
structure Arm where
  head : Head
  fresh : Bool
  body : List Element

/-- A block that is being put together, with the elements before it, last first. -/
inductive Pending where
  /-- The branches that ended, last first, and the one that goes on. -/
  | block (done : List Arm) (head : Head) (fresh : Bool) (before : List Element)
  | lastBranch (done : List Arm) (before : List Element)
  | decorator (head : Head) (before : List Element)
  | inclusion (name : Expr) (args : Arguments) (line : Line) (before : List Element)

/-- The block of its branches, last first: each is the other case of the one before it. -/
def blockOf (inverse : Option (List Element)) : List Arm → Option (List Element)
  | [] => inverse
  | b :: earlier => blockOf (some [.block b.head b.fresh b.body inverse]) earlier

/-- The name of the first branch. -/
def firstName (name : String) : List Arm → String
  | [] => name
  | b :: earlier => firstName b.head.name earlier

/-- The name of an expression, as a message shows it. -/
def exprName : Expr → String
  | .word w => w
  | .path p => p.text
  | .invalid t => t
  | _ => ""

/-- The text of an invalid parameter in a tag. -/
def Content.invalid? : Content → Option String
  | .value e => e.firstInvalid?
  | .call h => firstInvalidIn? h.args
  | .blockOpen h => firstInvalidIn? h.args
  | .chain h => firstInvalidIn? h.args
  | .decorator h => firstInvalidIn? h.args
  | .decoratorOpen h => firstInvalidIn? h.args
  | .inclusion name args => name.firstInvalid?.orElse fun _ => firstInvalidIn? args
  | .inclusionOpen name args => name.firstInvalid?.orElse fun _ => firstInvalidIn? args
  | _ => none

/-- Closes the innermost block. -/
def closePending (name : String) (pending : Pending) (here : List Element) :
    Except CompileError (List Element) :=
  match pending with
  | .block done head fresh before =>
      let opened := firstName head.name done
      if opened = name then
        .ok ((blockOf none (⟨head, fresh, here.reverse⟩ :: done)).getD [] ++ before)
      else .error (.helperMismatch opened name)
  | .lastBranch done before =>
      let opened := firstName name done
      if opened = name then .ok ((blockOf (some here.reverse) done).getD [] ++ before)
      else .error (.helperMismatch opened name)
  | .decorator head before =>
      if head.name = name then .ok (.decorator head (some here.reverse) :: before)
      else .error (.decoratorMismatch head.name name)
  | .inclusion target args line before =>
      if exprName target = name then .ok (.inclusion target args line (some here.reverse) :: before)
      else .error (.decoratorMismatch (exprName target) name)

/-- Puts the parts together, behind the elements `here`, last first. -/
def assemble (pending : List Pending) (here : List Element) :
    List Part → Except CompileError (List Element)
  | [] => .ok here.reverse
  | .text cs :: rest => assemble pending (.text (String.ofList cs) :: here) rest
  | .tag c line :: rest =>
      match c.invalid? with
      | some text => .error (.invalidParameter text)
      | none =>
        match c, pending with
        | .value e, _ => assemble pending (.value e :: here) rest
        | .call h, _ => assemble pending (.call h :: here) rest
        | .decorator h, _ => assemble pending (.decorator h none :: here) rest
        | .inclusion name args, _ => assemble pending (.inclusion name args line none :: here) rest
        | .comment, _ => assemble pending here rest
        | .blockOpen h, _ => assemble (.block [] h line.fresh here :: pending) [] rest
        | .decoratorOpen h, _ => assemble (.decorator h here :: pending) [] rest
        | .inclusionOpen name args, _ =>
            assemble (.inclusion name args { line with indent := [] } here :: pending) [] rest
        | .chain h', .block done h fresh before :: outer =>
            assemble (.block (⟨h, fresh, here.reverse⟩ :: done) h' line.fresh before :: outer) []
              rest
        | .otherwise, .block done h fresh before :: outer =>
            assemble (.lastBranch (⟨h, fresh, here.reverse⟩ :: done) before :: outer) [] rest
        | .close name, p :: outer =>
            match closePending name p here with
            | .ok here => assemble outer here rest
            | .error e => .error e
        | _, _ => .error .malformed

def ofParts (parts : List Part) : Except CompileError (List Element) :=
  if wellNested [] parts then assemble [] [] parts else .error .malformed

/-- The elements of a template. `closed` tells that its end counts as the end of a line, as it does
for partials. -/
def compile (closed : Bool) (source : String) : Except CompileError (List Element) :=
  match pieces? source.toList with
  | none => .error .malformed
  | some pieces => ofParts (placed closed pieces)

end Promptry.Template
