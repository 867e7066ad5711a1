import Promptry.Template.Helper

/-!
Rendering. A template is rendered against a root value, with registered helpers and partials. What a
partial writes is indented as its tag is: the indentation stands before every line that has
something on it. Blocks are rendered by structure; a partial is entered through `include`, and only
the depth of partials is bounded. Main statement: `renderAll_nil`.
-/

namespace Promptry.Template

/-- Helpers and partials that templates can use. -/
structure Library where
  helpers : List (String × Helper) := []
  partials : List (String × List Element) := []

namespace Library

def helper? (lib : Library) (name : String) : Option Helper :=
  (lib.helpers.lookup name).orElse fun _ => builtinHelpers.lookup name

end Library

/-! ### What is written -/

/-- The text written so far, and what is known of its last line. -/
structure Sheet where
  /-- What was written, last first. -/
  chunks : List (List Char) := []
  /-- The text ends a line. -/
  lineEnded : Bool := true
  /-- The next text starts on a fresh line and needs its indentation. -/
  fresh : Bool := false
  /-- Something was written since the block around was entered. -/
  produced : Bool := false

namespace Sheet

def isBreak (c : Char) : Bool := c == '\n' || c == '\r'

/-- Puts the indentation behind each line break that something other than a line break follows. -/
def indentLines (indent : List Char) : List Char → List Char
  | '\n' :: c :: cs =>
      if c == '\n' then '\n' :: indentLines indent (c :: cs)
      else '\n' :: (indent ++ indentLines indent (c :: cs))
  | c :: cs => c :: indentLines indent cs
  | [] => []

def startsWithBreak : List Char → Bool
  | c :: _ => isBreak c
  | [] => false

def endsWithBreak (cs : List Char) : Bool :=
  match cs.getLast? with
  | some c => isBreak c
  | none => false

/-- Writes text with indentation. -/
def write (indent : Option (List Char)) (s : Sheet) (cs : List Char) : Sheet :=
  if cs.isEmpty then s
  else
    let body := match indent with
      | some i =>
          (if s.fresh && !startsWithBreak cs then i else []) ++ indentLines i cs
      | none => cs
    let ended := endsWithBreak cs
    ⟨body :: s.chunks, ended, ended, true⟩

/-- Writes text as it is. -/
def put (s : Sheet) (cs : List Char) : Sheet := { s with chunks := cs :: s.chunks }

def text (s : Sheet) : List Char := s.chunks.reverse.flatten

theorem text_put (s : Sheet) (cs : List Char) : (s.put cs).text = s.text ++ cs := by
  simp [put, text]

/-- Enters a block, which may start on a fresh line. -/
def enter (s : Sheet) (fresh : Bool) : Sheet := { s with fresh, produced := false }

/-- Leaves a block that was entered from `outer`. -/
def leave (s outer : Sheet) : Sheet :=
  if s.produced then { s with fresh := s.lineEnded }
  else { s with fresh := outer.fresh, produced := outer.produced }

end Sheet

/-! ### Where rendering stands -/

/-- What is in force at a place of a template. -/
structure Place where
  root : Json
  scopes : List Scope
  /-- The bodies given to the partials around, the innermost first. -/
  bodies : List (List Element) := []
  /-- How many of them are not to be used. -/
  depth : Nat := 0
  indent : Option (List Char) := none

/-- What changes while rendering. -/
structure State where
  sheet : Sheet := {}
  /-- Partials that the template defined itself. -/
  inlinePartials : List (String × List Element) := []
  /-- The registered partial that is being rendered, until a block in it is entered. -/
  current : Option String := none

/-- Something that writes. -/
abbrev Action := State → Except RenderError State

/-- Renders elements of another template at a place. -/
abbrev Include := Place → List Element → Action

namespace Place

def push (p : Place) : Option Scope → Place
  | some s => { p with scopes := s :: p.scopes }
  | none => p

end Place

/-! ### Arguments -/

/-- The values of arguments, as far as they have one. -/
abbrev Results := List (Option String × Except RenderError Json)

/-- The values of the arguments that go by their place. -/
def positionalValues : Results → Except RenderError (List Json)
  | [] => .ok []
  | (none, v) :: rest => do return (← v) :: (← positionalValues rest)
  | (some _, _) :: rest => positionalValues rest

/-- The values of the named arguments; the last one of a name counts. -/
def namedValues (acc : Fields) : Results → Except RenderError Fields
  | [] => .ok acc
  | (none, _) :: rest => namedValues acc rest
  | (some k, v) :: rest => do namedValues (Fields.insert acc k (← v)) rest

/-- A call with its arguments, those that go by their place first. -/
def callOf (p : Place) (blockParams : List String) (hasInverse : Bool) (results : Results) :
    Except RenderError Call := do
  let params ← positionalValues results
  let named ← namedValues [] results
  return ⟨params, named, blockParams, Scope.current p.root p.scopes, hasInverse⟩

mutual

/-- The value of an expression. A call of a helper that shows no value has the text it writes. -/
def evaluate (lib : Library) (p : Place) : Expr → Except RenderError Json
  | .word w => .ok (.str w)
  | .path path => path.value p.root p.scopes
  | .literal v => .ok v
  | .invalid t => .ok (.str t)
  | .call head args => do
      let call ← callOf p [] false (evaluateAll lib p args)
      let name := exprName head
      match lib.helper? name with
      | none => .error (.helperNotFound name)
      | some helper =>
        match ← helper call with
        | .value v => return v
        | .written text _ => return .str text

def evaluateAll (lib : Library) (p : Place) : List (Option String × Expr) → Results
  | [] => []
  | (name, e) :: rest => (name, evaluate lib p e) :: evaluateAll lib p rest

end

/-- The name that an expression gives to what is called or included. -/
def nameOf (lib : Library) (p : Place) (e : Expr) : Except RenderError String :=
  match e with
  | .call _ _ => do return String.ofList (shown (← evaluate lib p e))
  | e => .ok (exprName e)

/-! ### Decorators and partials -/

/-- Defines a partial, without writing anything. -/
def decorate (lib : Library) (p : Place) (head : Head) (body : Option (List Element)) : Action :=
  fun st => do
    let call ← callOf p [] false (evaluateAll lib p head.args)
    if head.name = "inline" then
      match call.params with
      | .str name :: _ =>
        match body with
        | some els => return { st with inlinePartials := (name, els) :: st.inlinePartials }
        | none => .error .bodyRequired
      | _ :: _ => .error (.wrongParamType "String")
      | [] => .error (.missingParam "inline" 0)
    else .error (.decoratorNotFound head.name)

/-- Carries out the decorators among some elements. -/
def decorateAll (lib : Library) (p : Place) : List Element → Action
  | [] => fun st => .ok st
  | .decorator head body :: rest => fun st => do
      decorateAll lib p rest (← decorate lib p head body st)
  | _ :: rest => decorateAll lib p rest

/-- The name under which the body given to a partial is included. -/
def bodyName : String := "@partial-block"

/-- What a partial's name stands for, and the name that it is registered under, if it is. -/
def findPartial? (lib : Library) (p : Place) (st : State) (name : String)
    (body : Option (List Element)) : Option (List Element × Option String) :=
  let own : Option (List Element) :=
    if name = bodyName then p.bodies[p.depth]? else st.inlinePartials.lookup name
  match own with
  | some els => some (els, none)
  | none =>
    match lib.partials.lookup name with
    | some els => some (els, some name)
    | none => body.map (·, none)

/-- The fields that named arguments of a partial are added to. -/
def baseFields : Json → Fields
  | .obj fs => fs
  | .arr items => items.mapIdx fun i v => (toString i, v)
  | .str s => s.toList.mapIdx fun i c => (toString i, .str (String.singleton c))
  | _ => []

/-- The value that a partial is rendered with: its first argument or else the current value, with
the named arguments added. -/
def partialValue (call : Call) : Json :=
  let base := call.params.headD call.current
  if call.named.isEmpty then base else .obj (Fields.merge (baseFields base) call.named)

/-- The indentation of a partial's text. -/
def joinIndent (outer : Option (List Char)) (own : List Char) : Option (List Char) :=
  if own.isEmpty then outer else some (outer.getD [] ++ own)

/-- Includes a partial. -/
def includePartial (lib : Library) (rec : Include) (p : Place) (target : Expr) (args : Arguments)
    (line : Line) (body : Option (List Element)) : Action := fun st => do
  let name ← nameOf lib p target
  let call ← callOf p [] false (evaluateAll lib p args)
  let before := st.sheet
  let current := st.current
  let fresh := line.fresh && (before.lineEnded || !line.indent.isEmpty)
  let st := { st with sheet := before.enter fresh }
  let st ← (match body with
    | some els => decorateAll lib p els st
    | none => .ok st)
  if current = some name then .error .selfInclusion
  else
    match findPartial? lib p st name body with
    | none => .error (if name = bodyName then .partialBlockNotFound else .partialNotFound name)
    | some (els, registered) =>
      let locals := match p.scopes with
        | s :: _ => s.locals
        | [] => []
      let inner : Place :=
        { root := p.root
          scopes := [⟨partialValue call, [], locals⟩]
          bodies := body.toList ++ p.bodies
          depth := if name = bodyName then p.depth + 1 else p.depth - 1
          indent := joinIndent p.indent line.indent }
      let st ← rec inner els { st with current := registered }
      return { st with sheet := st.sheet.leave before, current }

/-! ### Elements -/

/-- Carries out what a helper answers. -/
def carryOut (p : Place) (body inverse : Place → Action) : Answer → Action
  | .value v => fun st => .ok { st with sheet := st.sheet.write p.indent (shown v) }
  | .written text runs => fun st =>
      runs.foldlM (fun st r => match r.branch with
        | .body => body (p.push r.scope) st
        | .inverse => inverse (p.push r.scope) st)
        { st with sheet := st.sheet.put text.toList }

/-- Calls a helper. -/
def callHelper (lib : Library) (p : Place) (head : Head) (fresh hasInverse : Bool)
    (body inverse : Place → Action) : Action := fun st => do
  let call ← callOf p head.params hasInverse (evaluateAll lib p head.args)
  match lib.helper? head.name with
  | none => .error (.helperNotFound head.name)
  | some helper =>
    let before := st.sheet
    let st := { st with sheet := before.enter (before.fresh || (fresh && before.lineEnded)) }
    let st ← carryOut p body inverse (← helper call) st
    return { st with sheet := st.sheet.leave before }

/-- Nothing to render. -/
def noBranch : Place → Action := fun _ st => .ok st

/-- Shows a value, or the answer of the helper that its name calls. -/
def showValue (lib : Library) (p : Place) (e : Expr) : Action := fun st => do
  let name ← nameOf lib p e
  if (lib.helper? name).isSome then
    callHelper lib p ⟨name, [], []⟩ false false noBranch noBranch st
  else
    let v ← evaluate lib p e
    return { st with sheet := st.sheet.write p.indent (shown v) }

mutual

def render (lib : Library) (rec : Include) (p : Place) : Element → Action
  | .text s => fun st => .ok { st with sheet := st.sheet.write p.indent s.toList }
  | .value e => showValue lib p e
  | .call head => callHelper lib p head false false noBranch noBranch
  | .block head fresh body inverse =>
      callHelper lib p head fresh inverse.isSome
        (fun p st => renderAll lib rec p body { st with current := none })
        (fun p st => match inverse with
          | some els => renderAll lib rec p els { st with current := none }
          | none => .ok st)
  | .decorator head body => decorate lib p head body
  | .inclusion target args line body => includePartial lib rec p target args line body

def renderAll (lib : Library) (rec : Include) (p : Place) : List Element → Action
  | [] => fun st => .ok st
  | e :: es => fun st =>
      match render lib rec p e st with
      | .ok st => renderAll lib rec p es st
      | .error err => .error err

end

/-- Renders elements with partials nested at most `depth` deep. -/
def renderNested (lib : Library) : Nat → Include
  | 0 => fun _ _ _ => .error .nestedTooDeep
  | depth + 1 => fun p els => renderAll lib (renderNested lib depth) p els

/-- How deep partials may be nested. -/
def maxDepth : Nat := 1000

/-- The text of a compiled template. -/
def renderElements (lib : Library) (els : List Element) (root : Json) :
    Except RenderError (List Char) := do
  let st ← renderNested lib maxDepth { root, scopes := [⟨root, [], []⟩] } els {}
  return st.sheet.text

/-- The text of a template. -/
def renderSource (lib : Library) (source : String) (root : Json) : Except RenderError String :=
  match compile false source with
  | .error e => .error (.doesNotCompile e)
  | .ok els => do return String.ofList (← renderElements lib els root)

theorem renderAll_nil (lib : Library) (rec : Include) (p : Place) (st : State) :
    renderAll lib rec p [] st = .ok st := by
  simp [renderAll]

end Promptry.Template
