import Promptry.Marker.Basic
import Promptry.Text.Blank

/-!
Reading markers out of a text. A text is cut into segments: markers, and the text between them. Role
and history markers steer the flow of a conversation, section and media markers stand for parts of a
message, and each kind is read on its own. What has the shape of a marker but no meaning stays text.
-/

namespace Promptry

/-- A stretch of text, or a marker. -/
inductive Segment where
  | text (s : String)
  | marker (m : Marker)
  deriving DecidableEq, Repr

/-- Something with the shape of a marker, and the marker if it has a meaning. -/
structure Candidate where
  written : List Char
  marker? : Option Marker

namespace Segment

/-- What is left of a text behind `lead`. -/
def behind? (lead cs : List Char) : Option (List Char) :=
  if lead.isPrefixOf cs then some (cs.drop lead.length) else none

def opening : List Char := Marker.opening.toList

def closing : List Char := Marker.closing.toList

/-! ### Flow -/

/-- The letters of role names. -/
def isRoleLetter (c : Char) : Bool := 'a' ≤ c && c ≤ 'z'

def historyTail : List Char := "history>>>".toList

def roleLead : List Char := "role:".toList

/-- A role or history marker at the head of a text. -/
def flowCandidate? (cs : List Char) : Option (Candidate × List Char) := do
  let inside ← behind? opening cs
  match behind? historyTail inside with
  | some rest => some (⟨opening ++ historyTail, some .history⟩, rest)
  | none => do
    let r ← behind? roleLead inside
    let name := r.takeWhile isRoleLetter
    let rest ← behind? closing (r.dropWhile isRoleLetter)
    if name.isEmpty then none
    else some (⟨opening ++ roleLead ++ name ++ closing,
      (Role.ofName? (String.ofList name)).map .role⟩, rest)

/-! ### Parts -/

/-- The text up to the first end of a marker on the same line, and the rest behind that end; `acc`
holds what was read before, last first. -/
def payload? (acc : List Char) : List Char → Option (List Char × List Char)
  | [] => none
  | '>' :: '>' :: '>' :: rest => some (acc.reverse, rest)
  | c :: cs => if c == '\n' then none else payload? (c :: acc) cs

/-- The texts before and behind the last occurrence of a character. -/
def splitLast? (sep : Char) (cs : List Char) : Option (List Char × List Char) :=
  let back := cs.reverse
  match back.dropWhile (· != sep) with
  | _ :: front => some (front.reverse, (back.takeWhile (· != sep)).reverse)
  | [] => none

/-- The medium that a payload stands for. Behind the last bar stands a content type, known by its
slash, or nothing; otherwise the bar belongs to the address. -/
def mediaOf? (payload : List Char) : Option Marker :=
  let (url, type) : List Char × Option (List Char) := match splitLast? '|' payload with
    | some (url, type) =>
        if type.contains '/' then (url, some type)
        else if type.isEmpty then (url, none)
        else (payload, none)
    | none => (payload, none)
  if url.isEmpty then none else some (.media (String.ofList url) (type.map String.ofList))

/-- The section that a payload names. -/
def sectionOf? (payload : List Char) : Option Marker :=
  let name := Text.trim payload
  if name.isEmpty then none else some (.pendingSection (String.ofList name))

def mediaLead : List Char := "media:".toList

def sectionLead : List Char := "section ".toList

/-- A media or section marker at the head of a text. -/
def partCandidate? (cs : List Char) : Option (Candidate × List Char) := do
  let inside ← behind? opening cs
  match behind? mediaLead inside with
  | some r => do
    let (payload, rest) ← payload? [] r
    some (⟨opening ++ mediaLead ++ payload ++ closing, mediaOf? payload⟩, rest)
  | none => do
    let r ← behind? sectionLead inside
    let (payload, rest) ← payload? [] r
    some (⟨opening ++ sectionLead ++ payload ++ closing, sectionOf? payload⟩, rest)

/-! ### Segments -/

/-- The segments so far, last first, with the text read since the last marker, last first. -/
def closeText (literal : List Char) (segments : List Segment) : List Segment :=
  if literal.isEmpty then segments else .text (String.ofList literal.reverse) :: segments

/-- Cuts a text. `fuel` is a text at least as long as the one that is cut. -/
def splitFrom (candidate? : List Char → Option (Candidate × List Char)) (fuel : List Char)
    (literal : List Char) (segments : List Segment) (cs : List Char) : List Segment :=
  match fuel, cs with
  | _ :: fuel, c :: r =>
      match candidate? cs with
      | some (⟨_, some m⟩, rest) =>
          splitFrom candidate? fuel [] (.marker m :: closeText literal segments) rest
      | some (⟨written, none⟩, rest) =>
          splitFrom candidate? fuel (written.reverse ++ literal) segments rest
      | none => splitFrom candidate? fuel (c :: literal) segments r
  | _, _ => (closeText literal segments).reverse

/-- The segments of a text around role and history markers. -/
def ofFlow (cs : List Char) : List Segment := splitFrom flowCandidate? cs [] [] cs

/-- The segments of a text around media and section markers. -/
def ofParts (cs : List Char) : List Segment := splitFrom partCandidate? cs [] [] cs

end Segment

end Promptry
