import Promptry.Codec.Record
import Promptry.Text.Numeral

/-!
What a store of prompts holds and answers: references to prompts, prompts with their sources, and
listings page by page. A page's cursor is the number of entries before the next one. Main statement:
`paginate_whole`.
-/

namespace Promptry

/-- What identifies a prompt or a partial in a store. -/
structure Reference where
  name : String
  variant : Option String := none
  version : Option String := none
  deriving DecidableEq, Repr

namespace Reference

/-- The order of optional texts: none comes first. -/
def optionLe : Option String → Option String → Bool
  | none, _ => true
  | some _, none => false
  | some a, some b => decide (a ≤ b)

/-- The order of listings: by name, then by variant, then by version. -/
def le (a b : Reference) : Bool :=
  if a.name = b.name then
    if a.variant = b.variant then optionLe a.version b.version else optionLe a.variant b.variant
  else decide (a.name ≤ b.name)

def shape : Shape Reference where
  name := "PromptRef"
  keys := ["name", "variant", "version"]
  required := 1
  empty := ⟨"", none, none⟩
  set r key v :=
    match key with
    | "name" => do return { r with name := ← Decoder.text v }
    | "variant" => do return { r with variant := ← Decoder.optional Decoder.text v }
    | _ => do return { r with version := ← Decoder.optional Decoder.text v }

def decode : Decoder Reference := shape.decode

def fields (r : Reference) : Fields :=
  ("name", .str r.name) :: fieldOf "variant" .str r.variant ++ fieldOf "version" .str r.version

def encode (r : Reference) : Json := .obj r.fields

end Reference

/-- A prompt or a partial with its source. -/
structure StoredPrompt where
  reference : Reference
  source : String
  deriving DecidableEq, Repr

namespace StoredPrompt

def decode : Decoder StoredPrompt := fun v => do
  let (source, reference) ← decodeBeside "PromptData" "source" Decoder.text Reference.shape v
  return ⟨reference, source⟩

def encode (p : StoredPrompt) : Json := .obj (p.reference.fields ++ [("source", .str p.source)])

end StoredPrompt

/-- Which variant of a prompt is meant. -/
structure LoadOptions where
  variant : Option String := none
  deriving DecidableEq, Repr

namespace LoadOptions

def shape : Shape LoadOptions where
  name := "LoadOptions"
  keys := ["variant"]
  empty := {}
  set _ _ v := do return ⟨← Decoder.optional Decoder.text v⟩

def decode : Decoder LoadOptions := shape.decode

def encode (o : LoadOptions) : Json := .obj (fieldOf "variant" .str o.variant)

end LoadOptions

/-! ### Pages -/

/-- Where a page starts, and how many entries it has at most. -/
structure ListOptions where
  cursor : Option String := none
  limit : Option Nat := none
  deriving DecidableEq, Repr

namespace ListOptions

def shape : Shape ListOptions where
  name := "ListOptions"
  keys := ["cursor", "limit"]
  empty := {}
  set o key v :=
    match key with
    | "cursor" => do return { o with cursor := ← Decoder.optional Decoder.text v }
    | _ => do return { o with limit := ← Decoder.optional Decoder.natural v }

def decode : Decoder ListOptions := shape.decode

def encode (o : ListOptions) : Json :=
  .obj (fieldOf "cursor" .str o.cursor ++ fieldOf "limit" Json.ofNat o.limit)

end ListOptions

/-- A part of a listing, with a cursor if entries follow. -/
structure Page where
  items : List Reference := []
  cursor : Option String := none
  deriving DecidableEq, Repr

namespace Page

def shape : Shape Page where
  name := "Page"
  keys := ["items", "cursor"]
  required := 1
  empty := {}
  set p key v :=
    match key with
    | "items" => do return { p with items := ← Decoder.list Reference.decode v }
    | _ => do return { p with cursor := ← Decoder.optional Decoder.text v }

def decode : Decoder Page := shape.decode

def encode (p : Page) : Json :=
  .obj (("items", .arr (p.items.map Reference.encode)) :: fieldOf "cursor" .str p.cursor)

end Page

/-- The sum of two numbers of 64 bits, or the largest of them where the sum has more bits. -/
def boundedSum (a b : Nat) : Nat := min (a + b) (Nat.pow 2 64 - 1)

/-- The page of a listing that starts at an offset. -/
def paginate (items : List Reference) (start : Nat) (limit : Option Nat) : Page :=
  let stop := match limit with
    | some n => min (boundedSum start n) items.length
    | none => items.length
  ⟨(items.drop start).take (stop - start),
    if stop < items.length then some (toString stop) else none⟩

/-- Without a limit, the first page is the whole listing. -/
theorem paginate_whole (items : List Reference) : paginate items 0 none = ⟨items, none⟩ := by
  simp [paginate]

end Promptry
