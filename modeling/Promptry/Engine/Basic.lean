import Promptry.Engine.Settings
import Promptry.Lookup
import Promptry.Prompt.Check
import Promptry.Store.Directory
import Promptry.Template.DataVariables

/-!
Engines: the helpers, partials, tools and schemas that are registered, and where to look for others.
Main statement: `tool?_defineTool`.
-/

namespace Promptry

/-- A question put to a caller's resolver. -/
inductive Call where
  | tool (name : String)
  | schema (name : String)
  | partialSource (name : String)
  deriving DecidableEq, Repr

namespace Call

def text : Call → String
  | tool name => "tool:" ++ name
  | schema name => "schema:" ++ name
  | partialSource name => "partial:" ++ name

end Call

structure Engine where
  library : Template.Library := {}
  tools : Table ToolDefinition := []
  schemas : Table Json := []
  defaultModel : Option String := none
  modelConfigs : ModelConfigs := []
  toolResolver : Option (Resolver ToolDefinition) := none
  schemaResolver : Option (Resolver Json) := none
  /-- A table of sources, so that only finitely many can be supplied. -/
  partialResolver : Option (Table (Lookup String)) := none
  store : Option Store.Directory := none
  /-- Names that cannot be resolved are errors. -/
  strict : Bool := false

namespace Engine

def defineHelper (e : Engine) (name : String) (h : Template.Helper) : Engine :=
  { e with library.helpers := Table.insert e.library.helpers name h }

/-- Registers a partial, if its source compiles. -/
def definePartial (e : Engine) (name source : String) : Except PromptError Engine :=
  match Template.compile true (Template.DataVariables.redirectAll source) with
  | .ok els => .ok { e with library.partials := Table.insert e.library.partials name els }
  | .error err => .error (.compile err)

def hasPartial (e : Engine) (name : String) : Bool := Table.contains e.library.partials name

/-- Registers partials in turn. -/
def definePartials (e : Engine) : List (String × String) → Except PromptError Engine
  | [] => .ok e
  | (name, source) :: rest => do definePartials (← e.definePartial name source) rest

def defineTool (e : Engine) (t : ToolDefinition) : Engine :=
  { e with tools := Table.insert e.tools t.name t }

theorem tool?_defineTool (e : Engine) (t : ToolDefinition) :
    Table.get? (e.defineTool t).tools t.name = some t := Table.get?_insert_self _ _ _

def defineSchema (e : Engine) (name : String) (schema : Json) : Engine :=
  { e with schemas := Table.insert e.schemas name schema }

/-- Puts settings over those of an engine. -/
def withSettings (e : Engine) (s : Settings) : Engine :=
  { e with
    defaultModel := override e.defaultModel s.defaultModel
    modelConfigs := Table.merge e.modelConfigs s.modelConfigs
    strict := s.strict }

end Engine

/-- An answer, or an error, and the questions asked for it. -/
structure Logged (α : Type) where
  result : Except PromptError α
  calls : List Call := []

namespace Logged

variable {α β : Type}

def pure (x : α) : Logged α := ⟨.ok x, []⟩

/-- Goes on with an answer; an error ends it. -/
def andThen (x : Logged α) (f : α → Logged β) : Logged β :=
  match x.result with
  | .ok v =>
    let y := f v
    ⟨y.result, x.calls ++ y.calls⟩
  | .error e => ⟨.error e, x.calls⟩

end Logged

end Promptry
