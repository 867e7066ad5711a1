import Promptry.Prompt.Metadata
import Promptry.Message.Codec

/-!
Metadata and prompts in JSON. A prompt's metadata stands beside its template or its messages, in one
object.
-/

namespace Promptry

namespace ToolDefinition

def shape : Shape ToolDefinition where
  name := "ToolDefinition"
  keys := ["name", "description", "inputSchema", "outputSchema"]
  required := 1
  empty := ⟨"", none, none, none⟩
  set t key v :=
    match key with
    | "name" => do return { t with name := ← Decoder.text v }
    | "description" => do return { t with description := ← Decoder.optional Decoder.text v }
    | "inputSchema" => do return { t with inputSchema := ← Decoder.present v }
    | _ => do return { t with outputSchema := ← Decoder.present v }

def decode : Decoder ToolDefinition := shape.decode

def encode (t : ToolDefinition) : Json :=
  .obj (("name", .str t.name) :: fieldOf "description" .str t.description ++
    fieldOf "inputSchema" id t.inputSchema ++ fieldOf "outputSchema" id t.outputSchema)

end ToolDefinition

namespace InputConfig

def shape : Shape InputConfig where
  name := "PromptInputConfig"
  keys := ["default", "schema"]
  synonyms := [("defaultValues", "default")]
  empty := {}
  set c key v :=
    match key with
    | "default" => do return { c with defaults := ← Decoder.optional Decoder.fields v }
    | _ => do return { c with schema := ← Decoder.present v }

def encode (c : InputConfig) : Json :=
  .obj (fieldOf "default" .obj c.defaults ++ fieldOf "schema" id c.schema)

end InputConfig

namespace OutputConfig

def shape : Shape OutputConfig where
  name := "PromptOutputConfig"
  keys := ["format", "schema"]
  empty := {}
  set c key v :=
    match key with
    | "format" => do return { c with format := ← Decoder.optional Decoder.text v }
    | _ => do return { c with schema := ← Decoder.present v }

def encode (c : OutputConfig) : Json :=
  .obj (fieldOf "format" .str c.format ++ fieldOf "schema" id c.schema)

end OutputConfig

namespace Metadata

/-- Puts a value under a key. `collected` tells that the metadata stands beside something else. -/
def set (collected : Bool) (m : Metadata) (key : String) (v : Json) : Except DecodeError Metadata :=
  match key with
  | "name" => do return { m with name := ← Decoder.scalarText v }
  | "variant" => do return { m with variant := ← Decoder.scalarText v }
  | "version" => do return { m with version := ← Decoder.scalarText v }
  | "description" => do return { m with description := ← Decoder.scalarText v }
  | "model" => do return { m with model := ← Decoder.scalarText v }
  | "config" => do return { m with config := ← Decoder.optional Decoder.fields v }
  | "input" => do
      return { m with input := ← Decoder.optional (InputConfig.shape.decode collected) v }
  | "output" => do
      return { m with output := ← Decoder.optional (OutputConfig.shape.decode collected) v }
  | "tools" => do return { m with tools := ← Decoder.optional (Decoder.list Decoder.text) v }
  | "toolDefs" => do
      return { m with
        toolDefs := ← Decoder.optional (Decoder.list (ToolDefinition.shape.decode collected)) v }
  | "ext" => do return { m with ext := ← Decoder.optional Decoder.fields v }
  | "metadata" => do return { m with metadata := ← Decoder.optional Decoder.fields v }
  | _ => do return { m with raw := ← Decoder.optional Decoder.fields v }

def shape (collected : Bool) : Shape Metadata where
  name := "PromptMetadata"
  keys := ["name", "variant", "version", "description", "model", "config", "input", "output",
    "tools", "toolDefs", "ext", "metadata", "raw"]
  empty := {}
  set := set collected

def decode : Decoder Metadata := (shape false).decode

/-- The fields of metadata, those that are set. -/
def fields (m : Metadata) : Fields :=
  fieldOf "name" .str m.name ++ fieldOf "variant" .str m.variant ++
    fieldOf "version" .str m.version ++ fieldOf "description" .str m.description ++
    fieldOf "model" .str m.model ++ fieldOf "config" .obj m.config ++
    fieldOf "input" InputConfig.encode m.input ++ fieldOf "output" OutputConfig.encode m.output ++
    fieldOf "tools" (fun ts => .arr (ts.map .str)) m.tools ++
    fieldOf "toolDefs" (fun ts => .arr (ts.map ToolDefinition.encode)) m.toolDefs ++
    fieldOf "ext" .obj m.ext ++ fieldOf "metadata" .obj m.metadata ++ fieldOf "raw" .obj m.raw

def encode (m : Metadata) : Json := .obj m.fields

end Metadata

namespace ParsedPrompt

def decode : Decoder ParsedPrompt := fun v => do
  let (template, metadata) ← decodeBeside "ParsedPrompt" "template" Decoder.text
    (Metadata.shape true) v
  return ⟨metadata, template⟩

def encode (p : ParsedPrompt) : Json := .obj (p.metadata.fields ++ [("template", .str p.template)])

end ParsedPrompt

namespace RenderedPrompt

def decode : Decoder RenderedPrompt := fun v => do
  let (messages, metadata) ← decodeBeside "RenderedPrompt" "messages"
    (Decoder.list Message.decode) (Metadata.shape true) v
  return ⟨metadata, messages⟩

def encode (p : RenderedPrompt) : Json :=
  .obj (p.metadata.fields ++ [("messages", encodeMessages p.messages)])

/-- The resolved metadata as plain fields. -/
def config (p : RenderedPrompt) : Fields := p.metadata.fields

end RenderedPrompt

end Promptry
