import Promptry.Message.Basic
import Promptry.Codec.Record

/-!
Messages in JSON. A part has no tag: it is of the first kind that its fields fit. Main statement:
`Role.decode_encode`.
-/

namespace Promptry

/-! ### Roles -/

namespace Role

def encode (r : Role) : Json := .str r.name

/-- The role of a name. -/
def ofVariant (name : String) : Except DecodeError Role :=
  match ofName? name with
  | some r => .ok r
  | none => .error (.unknownVariant name ["user", "model", "tool", "system"])

/-- A role is its name, or an object with null under its name. -/
def decode : Decoder Role
  | .str s => ofVariant s
  | .obj [(k, v)] =>
      match ofVariant k with
      | .ok r => match v with
        | .null => .ok r
        | v => .error (.wrongType v "unit")
      | .error e => .error e
  | .obj _ => .error .notOneKey
  | v => .error (.wrongType v "string or map")

theorem decode_encode (r : Role) : decode r.encode = .ok r := by
  simp [decode, encode, ofVariant, ofName?_name]

end Role

/-! ### Parts -/

namespace Media

def shape : Shape Media where
  name := "MediaContent"
  keys := ["url", "contentType"]
  required := 1
  empty := ⟨"", none⟩
  set m key v :=
    match key with
    | "url" => do return { m with url := ← Decoder.text v }
    | _ => do return { m with contentType := ← Decoder.optional Decoder.text v }

def encode (m : Media) : Json :=
  .obj (("url", .str m.url) :: fieldOf "contentType" .str m.contentType)

end Media

namespace ToolRequest

def shape : Shape ToolRequest where
  name := "ToolRequest"
  keys := ["name", "input", "ref"]
  required := 1
  empty := ⟨"", none, none⟩
  set r key v :=
    match key with
    | "name" => do return { r with name := ← Decoder.text v }
    | "input" => do return { r with input := ← Decoder.present v }
    | _ => do return { r with reference := ← Decoder.optional Decoder.text v }

def encode (r : ToolRequest) : Json :=
  .obj (("name", .str r.name) :: fieldOf "input" id r.input ++ fieldOf "ref" .str r.reference)

end ToolRequest

namespace ToolResponse

def shape : Shape ToolResponse where
  name := "ToolResponse"
  keys := ["name", "output", "ref"]
  required := 1
  empty := ⟨"", none, none⟩
  set r key v :=
    match key with
    | "name" => do return { r with name := ← Decoder.text v }
    | "output" => do return { r with output := ← Decoder.present v }
    | _ => do return { r with reference := ← Decoder.optional Decoder.text v }

def encode (r : ToolResponse) : Json :=
  .obj (("name", .str r.name) :: fieldOf "output" id r.output ++ fieldOf "ref" .str r.reference)

end ToolResponse

namespace Part

/-- A part of one kind: its body under a key, and metadata. -/
def shapeOf {β : Type} (key : String) (none? : β) (body : Decoder β) :
    Shape (β × Option Fields) where
  name := key
  keys := [key, "metadata"]
  required := 1
  empty := (none?, none)
  set x k v :=
    if k = key then do return (← body v, x.2)
    else do return (x.1, ← Decoder.optional Decoder.fields v)

/-- A part that is metadata alone. -/
def bareShape : Shape Fields where
  name := "metadata"
  keys := ["metadata"]
  required := 1
  empty := []
  set _ _ v := Decoder.fields v

/-- The first answer of two attempts that is a part. -/
def orElse (a : Except DecodeError Part) (b : Unit → Except DecodeError Part) :
    Except DecodeError Part :=
  match a with
  | .ok p => .ok p
  | .error _ => b ()

def decode : Decoder Part := fun v =>
  orElse (((shapeOf "text" "" Decoder.text).decode false v).map fun (x, m) => .text x m) fun _ =>
  orElse (((shapeOf "media" Media.shape.empty Media.shape.decode).decode false v).map
    fun (x, m) => .media x m) fun _ =>
  orElse (((shapeOf "data" .null .ok).decode false v).map fun (x, m) => .data x m) fun _ =>
  orElse (((shapeOf "toolRequest" ToolRequest.shape.empty ToolRequest.shape.decode).decode false
    v).map fun (x, m) => .toolRequest x m) fun _ =>
  orElse (((shapeOf "toolResponse" ToolResponse.shape.empty ToolResponse.shape.decode).decode
    false v).map fun (x, m) => .toolResponse x m) fun _ =>
  orElse ((bareShape.decode false v).map .metadata) fun _ =>
  .error (.noVariant "Part")

def encode : Part → Json
  | .text s m => .obj (("text", .str s) :: fieldOf "metadata" .obj m)
  | .media x m => .obj (("media", x.encode) :: fieldOf "metadata" .obj m)
  | .data v m => .obj (("data", v) :: fieldOf "metadata" .obj m)
  | .toolRequest r m => .obj (("toolRequest", r.encode) :: fieldOf "metadata" .obj m)
  | .toolResponse r m => .obj (("toolResponse", r.encode) :: fieldOf "metadata" .obj m)
  | .metadata m => .obj [("metadata", .obj m)]

end Part

/-! ### Messages -/

namespace Message

def shape : Shape Message where
  name := "Message"
  keys := ["role", "content", "metadata"]
  required := 2
  empty := ⟨.user, [], none⟩
  set m key v :=
    match key with
    | "role" => do return { m with role := ← Role.decode v }
    | "content" => do return { m with content := ← Decoder.list Part.decode v }
    | _ => do return { m with metadata := ← Decoder.optional Decoder.fields v }

def decode : Decoder Message := shape.decode

def encode (m : Message) : Json :=
  .obj (("role", m.role.encode) :: ("content", .arr (m.content.map Part.encode)) ::
    fieldOf "metadata" .obj m.metadata)

end Message

/-- A list of messages in JSON. -/
def encodeMessages (ms : List Message) : Json := .arr (ms.map Message.encode)

namespace Document

def shape : Shape Document where
  name := "Document"
  keys := ["content", "metadata"]
  required := 1
  empty := ⟨[], none⟩
  set d key v :=
    match key with
    | "content" => do return { d with content := ← Decoder.list Part.decode v }
    | _ => do return { d with metadata := ← Decoder.optional Decoder.fields v }

def decode : Decoder Document := shape.decode

def encode (d : Document) : Json :=
  .obj (("content", .arr (d.content.map Part.encode)) :: fieldOf "metadata" .obj d.metadata)

end Document

namespace RenderData

def shape : Shape RenderData where
  name := "DataArgument"
  keys := ["input", "docs", "messages", "context"]
  empty := {}
  set d key v :=
    match key with
    | "input" => do return { d with input := ← Decoder.optional Decoder.fields v }
    | "docs" => do
        return { d with docs := ← Decoder.optional (Decoder.list Document.decode) v }
    | "messages" => do
        return { d with messages := ← Decoder.optional (Decoder.list Message.decode) v }
    | _ => do return { d with context := ← Decoder.optional Decoder.fields v }

def decode : Decoder RenderData := shape.decode

def encode (d : RenderData) : Json :=
  .obj (fieldOf "input" .obj d.input ++
    fieldOf "docs" (fun ds => .arr (ds.map Document.encode)) d.docs ++
    fieldOf "messages" encodeMessages d.messages ++ fieldOf "context" .obj d.context)

end RenderData

end Promptry
