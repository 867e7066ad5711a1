import Promptry.Message.Basic

/-!
What a prompt says of itself: its name and model, the configuration of the model, its input and
output, and the tools it uses. Metadata can be layered; what the upper layer sets wins, and objects
are merged key by key. Main statements: `mergeFields_none_left`, `Metadata.layer_empty` and
`Metadata.empty_layer`.
-/

namespace Promptry

/-- A tool that a model may call. -/
structure ToolDefinition where
  name : String
  description : Option String := none
  inputSchema : Option Json := none
  outputSchema : Option Json := none
  deriving Repr

/-- The variables that a prompt takes. -/
structure InputConfig where
  defaults : Option Fields := none
  /-- A schema, in shorthand until it is resolved. -/
  schema : Option Json := none
  deriving Repr

structure OutputConfig where
  format : Option String := none
  schema : Option Json := none
  deriving Repr

structure Metadata where
  name : Option String := none
  variant : Option String := none
  version : Option String := none
  description : Option String := none
  model : Option String := none
  /-- Settings for the model. -/
  config : Option Fields := none
  input : Option InputConfig := none
  output : Option OutputConfig := none
  /-- Names of tools; once resolved, those that nothing is known of. -/
  tools : Option (List String) := none
  toolDefs : Option (List ToolDefinition) := none
  /-- Fields of extensions, by their name spaces. -/
  ext : Option Fields := none
  metadata : Option Fields := none
  /-- All that was said, as it was read. -/
  raw : Option Fields := none
  deriving Repr

/-- A prompt that was read: its metadata and its template. -/
structure ParsedPrompt where
  metadata : Metadata := {}
  template : String := ""
  deriving Repr

/-- A prompt that was rendered: its resolved metadata and its messages. -/
structure RenderedPrompt where
  metadata : Metadata
  messages : List Message
  deriving Repr

/-! ### Layers -/

/-- The fields of two layers, the upper one winning. -/
def mergeFields (base top : Option Fields) : Option Fields :=
  match base, top with
  | base, none => base
  | none, some top => some top
  | some base, some top => some (Fields.merge base top)

theorem mergeFields_none_left (top : Option Fields) : mergeFields none top = top := by
  cases top <;> rfl

theorem mergeFields_none_right (base : Option Fields) : mergeFields base none = base := by
  cases base <;> rfl

/-- What the upper layer sets, or else what the lower one does. -/
def override {α : Type} (base top : Option α) : Option α :=
  match top with
  | some x => some x
  | none => base

namespace InputConfig

def layer (base top : InputConfig) : InputConfig :=
  ⟨mergeFields base.defaults top.defaults, override base.schema top.schema⟩

end InputConfig

namespace OutputConfig

def layer (base top : OutputConfig) : OutputConfig :=
  ⟨override base.format top.format, override base.schema top.schema⟩

end OutputConfig

/-- Layers two values that may be missing, the lower one being empty then. -/
def layerOver {α : Type} (empty : α) (layer : α → α → α) (base top : Option α) : Option α :=
  match top with
  | some t => some (layer (base.getD empty) t)
  | none => base

namespace Metadata

/-- The metadata with another layer on top. -/
def layer (base top : Metadata) : Metadata where
  name := override base.name top.name
  variant := override base.variant top.variant
  version := override base.version top.version
  description := override base.description top.description
  model := override base.model top.model
  config := mergeFields base.config top.config
  input := layerOver {} InputConfig.layer base.input top.input
  output := layerOver {} OutputConfig.layer base.output top.output
  tools := override base.tools top.tools
  toolDefs := override base.toolDefs top.toolDefs
  ext := mergeFields base.ext top.ext
  metadata := mergeFields base.metadata top.metadata
  raw := override base.raw top.raw

/-- An empty layer changes nothing. -/
theorem layer_empty (m : Metadata) : m.layer {} = m := by
  simp [layer, override, mergeFields_none_right, layerOver]

/-- On an empty layer, the upper one is all there is. -/
theorem empty_layer (m : Metadata) : layer {} m = m := by
  cases m with
  | mk name variant version description model config input output tools toolDefs ext md raw =>
    have h {α : Type} (x : Option α) : override none x = x := by cases x <;> rfl
    cases input <;> cases output <;>
      simp [layer, h, mergeFields_none_left, layerOver, InputConfig.layer, OutputConfig.layer]

/-- The default values of the input. -/
def defaults (m : Metadata) : Option Fields := m.input.bind (·.defaults)

end Metadata

end Promptry
