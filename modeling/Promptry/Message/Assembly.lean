import Promptry.Message.Basic
import Promptry.Marker.Segment

/-!
Messages out of rendered text. The text is read line by line. Role and history markers end the
message at hand; all else gathers as text, which media and section markers split into parts when the
message ends. The history goes where its marker stands, or else behind the system messages at the
front.
-/

namespace Promptry

namespace Assembly

/-- The parts of a message's text; blank stretches are no parts. -/
def partsOf (cs : List Char) : List Part :=
  (Segment.ofParts cs).filterMap fun
    | .text s => if Text.isBlankText s.toList then none else some (.text s none)
    | .marker (.media url type) => some (.media ⟨url, type⟩ none)
    | .marker (.pendingSection name) => some (.pendingSection name)
    | .marker _ => none

end Assembly

/-- Messages being gathered. -/
structure Assembly where
  role : Role := .user
  /-- The text of the message at hand, as pieces, last first. -/
  buffer : List (List Char) := []
  /-- The messages so far, last first. -/
  messages : List Message := []
  historyPlaced : Bool := false

namespace Assembly

def add (a : Assembly) (cs : List Char) : Assembly := { a with buffer := cs :: a.buffer }

/-- Ends the message at hand. A text that is blank or has no parts makes no message. -/
def flush (a : Assembly) : Assembly :=
  let text := a.buffer.reverse.flatten
  let a := { a with buffer := [] }
  if Text.isBlankText text then a
  else
    match partsOf text with
    | [] => a
    | parts => { a with messages := ⟨a.role, parts, none⟩ :: a.messages }

/-- Places the history at its first marker. The model goes on behind each such marker. -/
def placeHistory (history : Option (List Message)) (a : Assembly) : Assembly :=
  let a := a.flush
  let a := if a.historyPlaced then a
    else { a with
      messages := ((history.getD []).map Message.asHistory).reverse ++ a.messages
      historyPlaced := true }
  { a with role := .model }

def segment (history : Option (List Message)) (a : Assembly) : Segment → Assembly
  | .text s => a.add s.toList
  | .marker (.role r) => { a.flush with role := r }
  | .marker .history => a.placeHistory history
  | .marker _ => a

/-- The lines of a text, without their line feeds; `acc` holds the line at hand, last first. -/
def lines (acc : List Char) (done : List (List Char)) : List Char → List (List Char)
  | [] => (acc.reverse :: done).reverse
  | '\n' :: cs => lines [] (acc.reverse :: done) cs
  | c :: cs => lines (c :: acc) done cs

def line (history : Option (List Message)) (a : Assembly) (cs : List Char) : Assembly :=
  (Segment.ofFlow cs).foldl (segment history) a

/-- Reads all lines, the first of which starts the text. -/
def readLines (history : Option (List Message)) (a : Assembly) : List (List Char) → Assembly
  | [] => a
  | l :: ls => ls.foldl (fun a l => line history (a.add ['\n']) l) (line history a l)

/-- Puts the history behind the system messages at the front. -/
def insertHistory (history : List Message) (messages : List Message) : List Message :=
  messages.takeWhile (·.role == .system) ++ history.map Message.asHistory ++
    messages.dropWhile (·.role == .system)

end Assembly

/-- The messages that a rendered text holds, with the history among them. A text that makes no
message is one message of the user, unless it is blank. -/
def messagesOf (rendered : String) (history : Option (List Message)) : List Message :=
  let cs := rendered.toList
  let a := (Assembly.readLines history {} (Assembly.lines [] [] cs)).flush
  let messages := if a.messages.isEmpty && !Text.isBlankText cs
    then [Message.ofText .user (String.ofList (Text.trim cs))]
    else a.messages.reverse
  match history with
  | some h => if a.historyPlaced then messages else Assembly.insertHistory h messages
  | none => messages

namespace Assembly

end Assembly

end Promptry
