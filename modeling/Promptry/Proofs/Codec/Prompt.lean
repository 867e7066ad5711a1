import Promptry.Proofs.Codec.Message
import Promptry.Prompt.Codec

/-!
Reading metadata and prompts back. No schema that is read is null, and what metadata holds in
records of its own is read back; it may stand beside a template or messages, since neither of their
keys is one of its own. Main statements: `Metadata.fills`, and `recodes` for definitions of tools,
metadata and prompts.
-/

namespace Promptry

section

variable {collected : Bool}

namespace ToolDefinition

theorem regular : shape.Regular := ⟨by decide, by decide⟩

/-- The schemas that are there are not null. -/
structure NoNull (t : ToolDefinition) : Prop where
  input : t.inputSchema ≠ some .null
  output : t.outputSchema ≠ some .null

theorem noNull_of_decode (v : Json) (t : ToolDefinition) (read : shape.decode collected v = .ok t) :
    t.NoNull := by
  refine shape.decode_induct NoNull ?_ ⟨nofun, nofun⟩ read
  intro t key v t' held set
  simp only [shape] at set
  split at set <;> obtain ⟨value, here, rfl⟩ := put_eq_ok_iff.mp set
  · exact ⟨held.input, held.output⟩
  · exact ⟨held.input, held.output⟩
  · exact ⟨present_ne_null here, held.output⟩
  · exact ⟨held.input, present_ne_null here⟩

theorem decode_encode (t : ToolDefinition) (noNull : t.NoNull) :
    shape.decode collected t.encode = .ok t := by
  have fills : shape.Fills shape.keys shape.empty
      (("name", .str t.name) :: (fieldOf "description" .str t.description ++
        (fieldOf "inputSchema" id t.inputSchema ++
          (fieldOf "outputSchema" id t.outputSchema ++ [])))) t :=
    .value rfl <| .field (ToolDefinition.mk t.name · none none) (kept_text _) (fun _ => rfl) rfl <|
      .field (ToolDefinition.mk t.name t.description · none) (kept_present noNull.input)
        (fun _ => rfl) rfl <|
      .field (ToolDefinition.mk t.name t.description t.inputSchema) (kept_present noNull.output)
        (fun _ => rfl) rfl .nil
  rw [List.append_nil] at fills
  simp only [encode, List.cons_append, List.append_assoc]
  exact fills.decode regular (by simp [shape, Table.keys]) collected

theorem recodes : Recodes (shape.decode collected) encode :=
  .of_readable noNull_of_decode decode_encode

end ToolDefinition

namespace InputConfig

theorem regular : shape.Regular := ⟨by decide, by decide⟩

/-- The schema, if there is one, is not null. -/
def NoNull (c : InputConfig) : Prop := c.schema ≠ some .null

theorem noNull_empty : NoNull shape.empty := nofun

theorem noNull_of_decode (v : Json) (c : InputConfig) (read : shape.decode collected v = .ok c) :
    c.NoNull := by
  refine shape.decode_induct NoNull ?_ noNull_empty read
  intro c key v c' held set
  simp only [shape] at set
  split at set <;> obtain ⟨value, here, rfl⟩ := put_eq_ok_iff.mp set
  · exact held
  · exact present_ne_null here

theorem decode_encode (c : InputConfig) (noNull : c.NoNull) :
    shape.decode collected c.encode = .ok c := by
  have fills : shape.Fills shape.keys shape.empty
      (fieldOf "default" .obj c.defaults ++ (fieldOf "schema" id c.schema ++ [])) c :=
    .field (InputConfig.mk · none) (kept_fields _) (fun _ => rfl) rfl <|
      .field (InputConfig.mk c.defaults) (kept_present noNull) (fun _ => rfl) rfl .nil
  rw [List.append_nil] at fills
  exact fills.decode regular nofun collected

theorem recodes : Recodes (shape.decode collected) encode :=
  .of_readable noNull_of_decode decode_encode

end InputConfig

namespace OutputConfig

theorem regular : shape.Regular := ⟨by decide, by decide⟩

/-- The schema, if there is one, is not null. -/
def NoNull (c : OutputConfig) : Prop := c.schema ≠ some .null

theorem noNull_empty : NoNull shape.empty := nofun

theorem noNull_of_decode (v : Json) (c : OutputConfig) (read : shape.decode collected v = .ok c) :
    c.NoNull := by
  refine shape.decode_induct NoNull ?_ noNull_empty read
  intro c key v c' held set
  simp only [shape] at set
  split at set <;> obtain ⟨value, here, rfl⟩ := put_eq_ok_iff.mp set
  · exact held
  · exact present_ne_null here

theorem decode_encode (c : OutputConfig) (noNull : c.NoNull) :
    shape.decode collected c.encode = .ok c := by
  have fills : shape.Fills shape.keys shape.empty
      (fieldOf "format" .str c.format ++ (fieldOf "schema" id c.schema ++ [])) c :=
    .field (OutputConfig.mk · none) (kept_text _) (fun _ => rfl) rfl <|
      .field (OutputConfig.mk c.format) (kept_present noNull) (fun _ => rfl) rfl .nil
  rw [List.append_nil] at fills
  exact fills.decode regular nofun collected

theorem recodes : Recodes (shape.decode collected) encode :=
  .of_readable noNull_of_decode decode_encode

end OutputConfig

/-! ### Metadata -/

namespace Metadata

theorem regular : (shape collected).Regular :=
  ⟨by cases collected <;> decide, fun _ _ => rfl⟩

/-- The metadata `m` with one of its values taken from other metadata. -/
def patch (key : String) (source m : Metadata) : Metadata :=
  let take {α : Type} (k : String) (value : Metadata → α) : α :=
    if key = k then value source else value m
  { name := take "name" name
    variant := take "variant" variant
    version := take "version" version
    description := take "description" description
    model := take "model" model
    config := take "config" config
    input := take "input" input
    output := take "output" output
    tools := take "tools" tools
    toolDefs := take "toolDefs" toolDefs
    ext := take "ext" ext
    metadata := take "metadata" Metadata.metadata
    raw := take "raw" raw }

theorem patch_comm {key key' : String} (ne : key ≠ key') (a b m : Metadata) :
    patch key a (patch key' b m) = patch key' b (patch key a m) := by
  have swap {α : Type} (k : String) (p q r : α) :
      (if key = k then p else if key' = k then q else r) =
        if key' = k then q else if key = k then p else r := by
    split
    · next same => rw [if_neg fun same' => ne (same.trans same'.symm)]
    · rfl
  simp only [patch, swap]

/-- Putting a value under a key changes nothing else, and does not depend on what is there. -/
theorem set_eq_patch {key : String} (known : key ∈ (shape collected).keys) (m : Metadata)
    (v : Json) :
    set collected m key v = (set collected {} key v).map fun source => patch key source m := by
  simp only [shape, List.mem_cons, List.not_mem_nil, or_false] at known
  rcases known with rfl | rfl | rfl | rfl | rfl | rfl | rfl | rfl | rfl | rfl | rfl | rfl | rfl
  -- the last key is the one that the definition does not name
  on_goal -1 => change (do return { m with raw := ← Decoder.optional Decoder.fields v }) =
    (do return { ({} : Metadata) with raw := ← Decoder.optional Decoder.fields v }).map _
  all_goals
    simp only [set, map_put]
    rfl

theorem commutes : (shape collected).Commutes := by
  intro key key' known known' ne m v v' m' both
  simp only [shape] at both ⊢
  obtain ⟨_, first, second⟩ := exists_of_bind_eq_ok both
  rw [set_eq_patch known] at first
  rw [set_eq_patch known'] at second
  obtain ⟨a, read, rfl⟩ := exists_of_map_eq_ok first
  obtain ⟨b, read', rfl⟩ := exists_of_map_eq_ok second
  rw [set_eq_patch known', read', ← patch_comm ne]
  show set collected _ key v = _
  rw [set_eq_patch known, read]
  rfl

/-- The records inside the metadata are read back. -/
structure Readable (collected : Bool) (m : Metadata) : Prop where
  input : Kept (Decoder.optional (InputConfig.shape.decode collected)) InputConfig.encode m.input
  output : Kept (Decoder.optional (OutputConfig.shape.decode collected)) OutputConfig.encode
    m.output
  toolDefs : Kept (Decoder.optional (Decoder.list (ToolDefinition.shape.decode collected)))
    (fun ts => .arr (ts.map ToolDefinition.encode)) m.toolDefs

theorem readable_of_decode (v : Json) (m : Metadata)
    (read : (shape collected).decode collected v = .ok m) : m.Readable collected := by
  refine (shape collected).decode_induct (Readable collected) ?_
    ⟨kept_none _ _, kept_none _ _, kept_none _ _⟩ read
  intro m key v m' held put
  simp only [shape, set] at put
  split at put <;> obtain ⟨value, here, rfl⟩ := put_eq_ok_iff.mp put
  case h_7 => exact ⟨InputConfig.recodes.optional nofun here, held.output, held.toolDefs⟩
  case h_8 => exact ⟨held.input, OutputConfig.recodes.optional nofun here, held.toolDefs⟩
  case h_10 => exact ⟨held.input, held.output, ToolDefinition.recodes.list.optional nofun here⟩
  all_goals exact ⟨held.input, held.output, held.toolDefs⟩

theorem kept_texts (o : Option (List String)) :
    Kept (Decoder.optional (Decoder.list Decoder.text)) (fun ts => .arr (ts.map .str)) o :=
  have back (t : String) : Decoder.text (.str t) = .ok t := rfl
  kept_list back o

theorem fills (m : Metadata) (readable : m.Readable collected) :
    (shape collected).Fills (shape collected).keys (shape collected).empty m.fields m := by
  obtain ⟨name, variant, version, description, model, config, input, output, tools, toolDefs, ext,
    metadata, raw⟩ := m
  have fills : (shape collected).Fills (shape collected).keys (shape collected).empty _ _ :=
    .field (Metadata.mk · none none none none none none none none none none none none)
      (kept_scalarText name) (fun _ => rfl) rfl <|
    .field (Metadata.mk name · none none none none none none none none none none none)
      (kept_scalarText variant) (fun _ => rfl) rfl <|
    .field (Metadata.mk name variant · none none none none none none none none none none)
      (kept_scalarText version) (fun _ => rfl) rfl <|
    .field (Metadata.mk name variant version · none none none none none none none none none)
      (kept_scalarText description) (fun _ => rfl) rfl <|
    .field (Metadata.mk name variant version description · none none none none none none none none)
      (kept_scalarText model) (fun _ => rfl) rfl <|
    .field (Metadata.mk name variant version description model · none none none none none none none)
      (kept_fields config) (fun _ => rfl) rfl <|
    .field (Metadata.mk name variant version description model config · none none none none none
      none) readable.input (fun _ => rfl) rfl <|
    .field (Metadata.mk name variant version description model config input · none none none none
      none) readable.output (fun _ => rfl) rfl <|
    .field (Metadata.mk name variant version description model config input output · none none none
      none) (kept_texts tools) (fun _ => rfl) rfl <|
    .field (Metadata.mk name variant version description model config input output tools · none none
      none) readable.toolDefs (fun _ => rfl) rfl <|
    .field (Metadata.mk name variant version description model config input output tools toolDefs ·
      none none) (kept_fields ext) (fun _ => rfl) rfl <|
    .field (Metadata.mk name variant version description model config input output tools toolDefs
      ext · none) (kept_fields metadata) (fun _ => rfl) rfl <|
    .field (Metadata.mk name variant version description model config input output tools toolDefs
      ext metadata) (kept_fields raw) (fun _ => rfl) rfl .nil
  rw [List.append_nil] at fills
  simpa only [fields, List.append_assoc] using fills

theorem decode_fields (m : Metadata) (readable : m.Readable collected) :
    (shape collected).decode collected (.obj m.fields) = .ok m :=
  (m.fills readable).decode regular nofun collected

/-- Metadata stands beside a value under a key that is none of its own. -/
theorem decodeBeside_fields {α : Type} {name key : String} {own : Decoder α} {w : Json} {x : α}
    (m : Metadata) (readable : m.Readable true) (apart : key ∉ (shape true).keys)
    (mine : own w = .ok x) :
    decodeBeside name key own (shape true) (.obj (m.fields ++ [(key, w)])) = .ok (x, m) :=
  decodeBeside_written mine (m.decode_fields readable) fun mem =>
    apart ((m.fills readable).ordered.subset mem)

theorem recodes : Recodes decode encode := .of_readable readable_of_decode decode_fields

end Metadata

end

/-! ### Prompts -/

namespace ParsedPrompt

theorem readable_of_decode (v : Json) (p : ParsedPrompt) (read : decode v = .ok p) :
    p.metadata.Readable true := by
  obtain ⟨⟨template, m⟩, beside, rfl⟩ := put_eq_ok_iff.mp read
  obtain ⟨-, w, here⟩ := decodeBeside_eq_ok beside
  exact Metadata.readable_of_decode w m here

theorem decode_encode (p : ParsedPrompt) (readable : p.metadata.Readable true) :
    decode p.encode = .ok p :=
  put_eq_ok_iff.mpr ⟨_, p.metadata.decodeBeside_fields readable (by decide) rfl, rfl⟩

theorem recodes : Recodes decode encode := .of_readable readable_of_decode decode_encode

end ParsedPrompt

namespace RenderedPrompt

/-- The metadata and the messages are read back. -/
structure Readable (p : RenderedPrompt) : Prop where
  metadata : p.metadata.Readable true
  messages : ∀ m ∈ p.messages, Message.decode m.encode = .ok m

theorem readable_of_decode (v : Json) (p : RenderedPrompt) (read : decode v = .ok p) :
    p.Readable := by
  obtain ⟨⟨messages, m⟩, beside, rfl⟩ := put_eq_ok_iff.mp read
  obtain ⟨⟨w, said⟩, w', here⟩ := decodeBeside_eq_ok beside
  exact ⟨Metadata.readable_of_decode w' m here, Message.recodes.of_mem_list said⟩

theorem decode_encode (p : RenderedPrompt) (readable : p.Readable) : decode p.encode = .ok p :=
  put_eq_ok_iff.mpr ⟨_, p.metadata.decodeBeside_fields readable.metadata (by decide)
    (list_map readable.messages), rfl⟩

theorem recodes : Recodes decode encode := .of_readable readable_of_decode decode_encode

end RenderedPrompt

end Promptry
