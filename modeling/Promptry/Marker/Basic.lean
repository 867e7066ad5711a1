import Promptry.Message.Role

/-!
Markers, the signs that a template writes into its text for whoever splits that text into messages:
a role to go on with, the place of the history, a section to be filled in, or a medium. A marker is
written between `<<<dotprompt:` and `>>>`.
-/

namespace Promptry

inductive Marker where
  | role (r : Role)
  | history
  | pendingSection (name : String)
  | media (url : String) (contentType : Option String)
  deriving DecidableEq, Repr

namespace Marker

/-- What a marker starts with. -/
def opening : String := "<<<dotprompt:"

/-- What a marker ends with. -/
def closing : String := ">>>"

/-- The text of a marker with some inside. -/
def wrap (inside : String) : String := opening ++ inside ++ closing

/-- The marker of any role name, also one that names no role and will stay text. -/
def roleText (name : String) : String := wrap ("role:" ++ name)

/-- How a marker is written. -/
def text : Marker → String
  | role r => roleText r.name
  | history => wrap "history"
  | pendingSection name => wrap ("section " ++ name)
  | media url (some type) => wrap ("media:" ++ url ++ "|" ++ type)
  | media url none => wrap ("media:" ++ url)

end Marker

end Promptry
