import Promptry.Proofs.Codec.Prompt
import Promptry.Proofs.Codec.Stored

/-!
All that is exchanged as JSON is read back from what is written of it. Much that is read is not
written as it was: records are read from arrays, too, keys that are not known are dropped, null
stands for what is missing, and a default has two keys. What is written in its place is read as the
same value again. Main statement: `Exchanged.decode_encode_of_decode`.
-/

namespace Promptry

/-- The types of what is exchanged. -/
inductive Exchanged where
  | part
  | message
  | document
  | renderData
  | toolDefinition
  | metadata
  | parsedPrompt
  | renderedPrompt
  | reference
  | storedPrompt
  | listOptions
  | loadOptions
  | page
  deriving DecidableEq, Repr

namespace Exchanged

/-- The values of a type. -/
def Carrier : Exchanged → Type
  | part => Part
  | message => Message
  | document => Document
  | renderData => RenderData
  | toolDefinition => ToolDefinition
  | metadata => Metadata
  | parsedPrompt => ParsedPrompt
  | renderedPrompt => RenderedPrompt
  | reference => Reference
  | storedPrompt => StoredPrompt
  | listOptions => ListOptions
  | loadOptions => LoadOptions
  | page => Page

def decode : (t : Exchanged) → Decoder t.Carrier
  | part => Part.decode
  | message => Message.decode
  | document => Document.decode
  | renderData => RenderData.decode
  | toolDefinition => ToolDefinition.decode
  | metadata => Metadata.decode
  | parsedPrompt => ParsedPrompt.decode
  | renderedPrompt => RenderedPrompt.decode
  | reference => Reference.decode
  | storedPrompt => StoredPrompt.decode
  | listOptions => ListOptions.decode
  | loadOptions => LoadOptions.decode
  | page => Page.decode

def encode : (t : Exchanged) → t.Carrier → Json
  | part => Part.encode
  | message => Message.encode
  | document => Document.encode
  | renderData => RenderData.encode
  | toolDefinition => ToolDefinition.encode
  | metadata => Metadata.encode
  | parsedPrompt => ParsedPrompt.encode
  | renderedPrompt => RenderedPrompt.encode
  | reference => Reference.encode
  | storedPrompt => StoredPrompt.encode
  | listOptions => ListOptions.encode
  | loadOptions => LoadOptions.encode
  | page => Page.encode

/-- What is written of the value that is read. -/
def recode (t : Exchanged) (v : Json) : Except DecodeError Json := (t.decode v).map t.encode

theorem recodes (t : Exchanged) : Recodes t.decode t.encode := by
  cases t with
  | part => exact Part.recodes
  | message => exact Message.recodes
  | document => exact Document.recodes
  | renderData => exact RenderData.recodes
  | toolDefinition => exact ToolDefinition.recodes
  | metadata => exact Metadata.recodes
  | parsedPrompt => exact ParsedPrompt.recodes
  | renderedPrompt => exact RenderedPrompt.recodes
  | reference => exact fun _ r _ => r.decode_encode
  | storedPrompt => exact fun _ p _ => p.decode_encode
  | listOptions => exact fun _ o _ => o.decode_encode
  | loadOptions => exact fun _ o _ => o.decode_encode
  | page => exact fun _ p _ => p.decode_encode

/-- What is written is written again as it is. -/
theorem recode_again {t : Exchanged} {v w : Json} (written : t.recode v = .ok w) :
    t.recode w = .ok w := by
  rw [recode] at written
  cases read : t.decode v with
  | error err => rw [read] at written; cases written
  | ok x =>
    rw [read] at written
    cases written
    rw [recode, t.recodes v x read]
    rfl

/-- Every value that is read, of whatever type, is read from what is written of it, so that writing
it again changes nothing. Every part is, too, unless the input or the output of a tool that it holds
is null. -/
theorem decode_encode_of_decode :
    (∀ (t : Exchanged) v x, t.decode v = .ok x → t.decode (t.encode x) = .ok x) ∧
    (∀ (t : Exchanged) v w, t.recode v = .ok w → t.recode w = .ok w) ∧
    ∀ p : Part, p.NoNull → Part.decode p.encode = .ok p :=
  ⟨recodes, fun _ _ _ => recode_again, Part.decode_encode⟩

/-- A rendered prompt with a name that is no text, a default under its other key, a key that is not
known, and messages of which the first is an array and the second answers with null. -/
def loosely : Json :=
  .obj [("name", .bool true),
    ("messages", .arr [.arr [.str "user", .arr [.obj [("text", .str "Hi"), ("tone", .null)]]],
      .obj [("content", .arr [.obj [("toolResponse", .obj [("name", .str "clock"),
        ("output", .null)])]]), ("role", .str "tool")]]),
    ("input", .obj [("defaultValues", .obj [("city", .str "Rome")]), ("schema", .null)]),
    ("unknown", .ofNat 1)]

/-- What is read from it. -/
def strictly : RenderedPrompt where
  metadata := { name := some "true", input := some ⟨some [("city", .str "Rome")], none⟩ }
  messages := [⟨.user, [.text "Hi" none], none⟩,
    ⟨.tool, [.toolResponse ⟨"clock", none, none⟩ none], none⟩]

theorem decode_encode_loosely :
    renderedPrompt.decode loosely = .ok strictly ∧ RenderedPrompt.encode strictly ≠ loosely ∧
      renderedPrompt.decode (RenderedPrompt.encode strictly) = .ok strictly ∧
      Part.decode (Part.encode (.toolRequest ⟨"clock", some (.obj []), none⟩ none)) =
        .ok (.toolRequest ⟨"clock", some (.obj []), none⟩ none) := by
  have read : renderedPrompt.decode loosely = .ok strictly := rfl
  refine ⟨read, ?_, decode_encode_of_decode.1 renderedPrompt loosely strictly read,
    decode_encode_of_decode.2.2 _ nofun⟩
  simp [RenderedPrompt.encode, loosely, strictly, Metadata.fields, fieldOf]

end Exchanged

end Promptry
