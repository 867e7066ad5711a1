import Promptry.Engine.Basic
import Promptry.Template.References

/-!
Resolving metadata: overrides and the defaults of an engine and of the model are layered, the names
of tools become definitions, and schemas in shorthand become JSON Schema. A tool is looked for among
those registered, then asked for; a name found nowhere stays in the list. Main statements:
`addTools_nil` and `resolveTools_of_none`.
-/

namespace Promptry.Engine

/-! ### Layers -/

/-- Metadata under its overrides, with the default model and the configuration of its model. -/
def layered (e : Engine) (base : Metadata) (overrides : Option Metadata) : Metadata :=
  let m := match overrides with
    | some top => base.layer top
    | none => base
  let model := override e.defaultModel m.model
  let config := model.bind fun name => Table.get? e.modelConfigs name
  { m with model, config := mergeFields config m.config }

/-! ### Tools -/

/-- The definition of a tool; a resolver that fails counts as one that finds nothing. -/
def tool? (e : Engine) (name : String) : Option ToolDefinition :=
  match Table.get? e.tools name with
  | some t => some t
  | none => e.toolResolver.bind fun resolve => (resolve name).found?

/-- The tools that are asked for. -/
def toolCalls (e : Engine) (names : List String) : List Call :=
  if e.toolResolver.isSome then
    (names.filter fun name => !Table.contains e.tools name).map .tool
  else []

def isDefined (defs : List ToolDefinition) (name : String) : Bool :=
  defs.any fun t => t.name == name

/-- Adds definitions, of each name the first. -/
def addTools (defs found : List ToolDefinition) : List ToolDefinition :=
  found.foldl (fun defs t => if isDefined defs t.name then defs else defs ++ [t]) defs

theorem addTools_nil (defs : List ToolDefinition) : addTools defs [] = defs := rfl

/-- A list, unless it is empty. -/
def unlessEmpty {α : Type} (xs : List α) : Option (List α) := if xs.isEmpty then none else some xs

/-- Turns the names of tools into definitions, those that are found. -/
def resolveTools (e : Engine) (m : Metadata) : Logged Metadata :=
  match m.tools with
  | none => .pure m
  | some names =>
    let names := Template.References.distinct [] names
    let defs := addTools (m.toolDefs.getD []) (names.filterMap e.tool?)
    let missing := names.filter fun name => (e.tool? name).isNone && !isDefined defs name
    let calls := e.toolCalls names
    match e.strict, missing with
    | true, name :: _ => ⟨.error (.toolMissing name), calls⟩
    | _, _ => ⟨.ok { m with toolDefs := unlessEmpty defs, tools := unlessEmpty missing }, calls⟩

theorem resolveTools_of_none {e : Engine} {m : Metadata} (h : m.tools = none) :
    e.resolveTools m = .pure m := by
  simp [resolveTools, h]

/-! ### Schemas -/

/-- The schema of a name: registered, or asked for. -/
def lookupSchema (e : Engine) (name : String) : Lookup Json :=
  match Table.get? e.schemas name with
  | some s => .found s
  | none =>
    match e.schemaResolver with
    | some resolve => resolve name
    | none => .missing

/-- How names in shorthand are looked up, if any can be. -/
def schemaLookup (e : Engine) : Option (Resolver Json) :=
  if e.schemas.isEmpty && e.schemaResolver.isNone then none else some e.lookupSchema

/-- The schemas that are asked for. -/
def schemaCalls (e : Engine) (names : List String) : List Call :=
  if e.schemaResolver.isSome then
    (names.filter fun name => !Table.contains e.schemas name).map .schema
  else []

def resolveSchema (e : Engine) (schema : Option Json) : Logged (Option Json) :=
  match schema with
  | none => .pure none
  | some v =>
    let (answer, asked) := (Schema.ofShorthand e.schemaLookup v).result
    ⟨answer.mapError .schema, e.schemaCalls asked⟩

def resolveInput (e : Engine) (m : Metadata) : Logged Metadata :=
  match m.input with
  | none => .pure m
  | some c => (e.resolveSchema c.schema).andThen fun schema =>
      .pure { m with input := some { c with schema } }

def resolveOutput (e : Engine) (m : Metadata) : Logged Metadata :=
  match m.output with
  | none => .pure m
  | some c => (e.resolveSchema c.schema).andThen fun schema =>
      .pure { m with output := some { c with schema } }

/-- The metadata that a prompt is rendered with. -/
def resolveMetadata (e : Engine) (base : Metadata) (overrides : Option Metadata) :
    Logged Metadata :=
  ((e.resolveTools (e.layered base overrides)).andThen e.resolveInput).andThen e.resolveOutput

end Promptry.Engine
