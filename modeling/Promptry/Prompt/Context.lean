import Promptry.Prompt.Codec
import Promptry.Template.DataVariables

/-!
The root value that a prompt's template is rendered against: the defaults of its input, the caller's
input over them, and under a reserved key the data variables. Main statement:
`get?_contextRoot_context`.
-/

namespace Promptry

open Template.DataVariables

/-- A value that may be missing, as JSON. -/
def orNull {α : Type} (encode : α → Json) : Option α → Json
  | some x => encode x
  | none => .null

/-- The data variables: what is known of the prompt and the conversation, and the caller's own. -/
def contextFields (m : Metadata) (d : RenderData) : Fields :=
  Fields.merge
    [("metadata", .obj [("prompt", m.encode),
      ("docs", orNull (fun ds => .arr (ds.map Document.encode)) d.docs),
      ("messages", orNull encodeMessages d.messages)])]
    (d.context.getD [])

/-- The fields of the root. -/
def contextRoot (m : Metadata) (d : RenderData) : Fields :=
  Fields.insert (Fields.merge (m.defaults.getD []) (d.input.getD [])) contextKey
    (.obj (contextFields m d))

theorem get?_contextRoot_context (m : Metadata) (d : RenderData) :
    Fields.get? (contextRoot m d) contextKey = some (.obj (contextFields m d)) :=
  Fields.get?_insert_self _ _ _

end Promptry
