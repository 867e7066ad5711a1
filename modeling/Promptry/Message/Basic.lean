import Promptry.Message.Role
import Promptry.Json.Basic

/-!
Messages of a conversation. A message has a role and a content of parts: text, media, data, tool
requests and responses, or bare metadata, which stands for a section still to be filled in.
-/

namespace Promptry

structure Media where
  url : String
  contentType : Option String := none
  deriving Repr

structure ToolRequest where
  name : String
  input : Option Json := none
  reference : Option String := none
  deriving Repr

structure ToolResponse where
  name : String
  output : Option Json := none
  reference : Option String := none
  deriving Repr

/-- One piece of a message's content. All kinds may carry metadata. -/
inductive Part where
  | text (text : String) (metadata : Option Fields)
  | media (media : Media) (metadata : Option Fields)
  | data (value : Json) (metadata : Option Fields)
  | toolRequest (request : ToolRequest) (metadata : Option Fields)
  | toolResponse (response : ToolResponse) (metadata : Option Fields)
  | metadata (fields : Fields)
  deriving Repr

namespace Part

/-- The part of a section that is still to be filled in. -/
def pendingSection (name : String) : Part :=
  .metadata [("purpose", .str name), ("pending", .bool true)]

def asText? : Part → Option String
  | .text s _ => some s
  | _ => none

end Part

structure Message where
  role : Role
  content : List Part
  metadata : Option Fields := none
  deriving Repr

namespace Message

/-- A message of one text. -/
def ofText (role : Role) (s : String) : Message := ⟨role, [.text s none], none⟩

/-- The message marked as part of the history. -/
def asHistory (m : Message) : Message :=
  { m with metadata := some (Fields.insert (m.metadata.getD []) "purpose" (.str "history")) }

def isHistory (m : Message) : Bool :=
  match Fields.get? (m.metadata.getD []) "purpose" with
  | some (.str s) => s == "history"
  | _ => false

/-- The texts of a message's text parts. -/
def texts (m : Message) : List String := m.content.filterMap Part.asText?

end Message

/-- A retrieved document, which templates see among the context. -/
structure Document where
  content : List Part
  metadata : Option Fields := none
  deriving Repr

/-- What a caller renders a prompt with. -/
structure RenderData where
  /-- Values for the variables of the template, before the defaults of the prompt. -/
  input : Option Fields := none
  docs : Option (List Document) := none
  /-- The history of the conversation. -/
  messages : Option (List Message) := none
  /-- Data variables. -/
  context : Option Fields := none
  deriving Repr

/-- Data with an input, if that is an object. -/
def RenderData.ofInput (input : Json) : RenderData := { input := input.asFields? }

end Promptry
