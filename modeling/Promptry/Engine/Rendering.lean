import Promptry.Engine.Metadata
import Promptry.Engine.Partials
import Promptry.Message.Assembly
import Promptry.Prompt.Context

/-!
From the source of a prompt to its messages. A prompt is compiled first: it is read, its template is
checked and its partials are loaded. Rendering resolves the metadata, renders the template against
the root value and reads the messages out of the text.
-/

namespace Promptry

/-- Renders a template, its data variables redirected. -/
def renderTemplate (lib : Template.Library) (template : String) (root : Json) :
    Except PromptError String :=
  (Template.renderSource lib (Template.DataVariables.redirectAll template) root).mapError .render

namespace Engine

/-- Compiles a source. The prompt that was read can be rendered by the engine behind it. -/
def compile (e : Engine) (source : String) : Outcome ParsedPrompt :=
  match ParsedPrompt.ofSource source with
  | .error err => ⟨.error (.source err), e, []⟩
  | .ok prompt =>
    match checkTemplate prompt.template with
    | .error err => ⟨.error err, e, []⟩
    | .ok _ =>
      let found := e.resolvePartials prompt.template
      ⟨found.result.map fun _ => prompt, found.engine, found.calls⟩

/-- The source that the store has for a prompt. -/
def storedSource (e : Engine) (name : String) (o : LoadOptions) : Except PromptError String :=
  match e.store with
  | none => .error (.store ("no prompt store configured to load '" ++ name ++ "'"))
  | some d =>
    match d.load .whole name o.variant with
    | .error err => .error (.store err.message)
    | .ok none => .error (.store ("prompt '" ++ name ++ "' not found"))
    | .ok (some p) => .ok p.source

/-- Compiles a prompt of the store. -/
def load (e : Engine) (name : String) (o : LoadOptions) : Outcome ParsedPrompt :=
  match e.storedSource name o with
  | .error err => ⟨.error err, e, []⟩
  | .ok source => e.compile source

/-- Renders a prompt that was compiled. -/
def renderPrompt (e : Engine) (prompt : ParsedPrompt) (data : RenderData)
    (overrides : Option Metadata) : Logged RenderedPrompt :=
  (e.resolveMetadata prompt.metadata overrides).andThen fun metadata =>
    ⟨(renderTemplate e.library prompt.template (.obj (contextRoot metadata data))).map fun text =>
      ⟨metadata, messagesOf text data.messages⟩, []⟩

/-- Compiles a source and renders it. -/
def render (e : Engine) (source : String) (data : RenderData) (overrides : Option Metadata) :
    Outcome RenderedPrompt :=
  let compiled := e.compile source
  match compiled.result with
  | .error err => ⟨.error err, compiled.engine, compiled.calls⟩
  | .ok prompt =>
    let rendered := compiled.engine.renderPrompt prompt data overrides
    ⟨rendered.result, compiled.engine, compiled.calls ++ rendered.calls⟩

/-- The metadata that a source is rendered with. -/
def renderMetadata (e : Engine) (source : String) (overrides : Option Metadata) :
    Logged Metadata :=
  match ParsedPrompt.ofSource source with
  | .error err => ⟨.error (.source err), []⟩
  | .ok prompt => e.resolveMetadata prompt.metadata overrides

end Engine

end Promptry
