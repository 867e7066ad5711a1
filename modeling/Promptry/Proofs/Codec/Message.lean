import Promptry.Message.Codec
import Promptry.Proofs.Codec.Record

/-!
Reading messages back. A part is written with its body under the key of its kind, which no kind
before it can be read without, so it is read as its own kind again. Only a tool's input or output
that is there and null is not read back: null stands for a value that is missing. Main statements:
`Part.decode_encode`, and `recodes` for parts, messages, documents and the data of a caller.
-/

namespace Promptry

/-! ### The bodies of parts -/

namespace Media

theorem regular : shape.Regular := ⟨by decide, by decide⟩

theorem decode_encode (m : Media) : shape.decode false m.encode = .ok m := by
  have fills : shape.Fills shape.keys shape.empty
      (("url", .str m.url) :: (fieldOf "contentType" .str m.contentType ++ [])) m :=
    .value rfl <| .field (Media.mk m.url) (kept_text _) (fun _ => rfl) rfl .nil
  rw [List.append_nil] at fills
  exact fills.decode regular (by simp [shape, Table.keys]) false

end Media

namespace ToolRequest

/-- The input, if there is one, is not null. -/
def NoNull (r : ToolRequest) : Prop := r.input ≠ some .null

theorem regular : shape.Regular := ⟨by decide, by decide⟩

theorem decode_encode (r : ToolRequest) (noNull : r.NoNull) :
    shape.decode false r.encode = .ok r := by
  have fills : shape.Fills shape.keys shape.empty
      (("name", .str r.name) :: (fieldOf "input" id r.input ++
        (fieldOf "ref" .str r.reference ++ []))) r :=
    .value rfl <| .field (ToolRequest.mk r.name · none) (kept_present noNull) (fun _ => rfl) rfl <|
      .field (ToolRequest.mk r.name r.input) (kept_text _) (fun _ => rfl) rfl .nil
  rw [List.append_nil] at fills
  exact fills.decode regular (by simp [shape, Table.keys]) false

theorem noNull_empty : NoNull shape.empty := nofun

theorem noNull_of_decode (v : Json) (r : ToolRequest) (read : shape.decode false v = .ok r) :
    r.NoNull := by
  refine shape.decode_induct NoNull ?_ noNull_empty read
  intro r key v r' held set
  simp only [shape] at set
  split at set <;> obtain ⟨value, here, rfl⟩ := put_eq_ok_iff.mp set
  · exact held
  · exact present_ne_null here
  · exact held

end ToolRequest

namespace ToolResponse

/-- The output, if there is one, is not null. -/
def NoNull (r : ToolResponse) : Prop := r.output ≠ some .null

theorem regular : shape.Regular := ⟨by decide, by decide⟩

theorem decode_encode (r : ToolResponse) (noNull : r.NoNull) :
    shape.decode false r.encode = .ok r := by
  have fills : shape.Fills shape.keys shape.empty
      (("name", .str r.name) :: (fieldOf "output" id r.output ++
        (fieldOf "ref" .str r.reference ++ []))) r :=
    .value rfl <| .field (ToolResponse.mk r.name · none) (kept_present noNull) (fun _ => rfl) rfl <|
      .field (ToolResponse.mk r.name r.output) (kept_text _) (fun _ => rfl) rfl .nil
  rw [List.append_nil] at fills
  exact fills.decode regular (by simp [shape, Table.keys]) false

theorem noNull_empty : NoNull shape.empty := nofun

theorem noNull_of_decode (v : Json) (r : ToolResponse) (read : shape.decode false v = .ok r) :
    r.NoNull := by
  refine shape.decode_induct NoNull ?_ noNull_empty read
  intro r key v r' held set
  simp only [shape] at set
  split at set <;> obtain ⟨value, here, rfl⟩ := put_eq_ok_iff.mp set
  · exact held
  · exact present_ne_null here
  · exact held

end ToolResponse

/-! ### Parts -/

namespace Part

section

variable {β : Type} {key : String} {unset x : β} {body : Decoder β} {v : Json} {m : Option Fields}

/-- A part of one kind, as it is written. -/
def written (key : String) (v : Json) (m : Option Fields) : Json :=
  .obj ((key, v) :: fieldOf "metadata" .obj m)

theorem decode_shapeOf (apart : key ≠ "metadata") (back : body v = .ok x) :
    (shapeOf key unset body).decode false (written key v m) = .ok (x, m) := by
  have regular : (shapeOf key unset body).Regular := by
    refine ⟨?_, fun _ _ => rfl⟩
    simp [shapeOf, apart]
  have sets : (shapeOf key unset body).set (unset, none) key v = .ok (x, none) := by
    simp only [shapeOf, if_true, back]
    rfl
  have sets' (w : Json) : (shapeOf key unset body).set (x, none) "metadata" w =
      do return (x, ← Decoder.optional Decoder.fields w) := by
    simp only [shapeOf, if_neg (Ne.symm apart)]
  have fills : (shapeOf key unset body).Fills [key, "metadata"] (unset, none)
      ((key, v) :: (fieldOf "metadata" .obj m ++ [])) (x, m) :=
    .value sets <| .field (x, ·) (kept_fields m) sets' rfl .nil
  rw [List.append_nil] at fills
  exact fills.decode regular (by simp [shapeOf, Table.keys]) false

/-- A part of another kind has no body under the key. -/
theorem not_decode_shapeOf {other : String} {xm : β × Option Fields} (apart : key ≠ "metadata")
    (ne : other ≠ key) : (shapeOf key unset body).decode false (written other v m) ≠ .ok xm := by
  refine Shape.decode_of_missing (by simp [shapeOf] : key ∈ _) fun f mem => ?_
  have known : f.1 = other ∨ f.1 = "metadata" := by
    rcases List.mem_cons.mp mem with rfl | mem
    · exact .inl rfl
    · cases m with
      | none => cases mem
      | some fs => exact .inr (congrArg Prod.fst (List.mem_singleton.mp mem))
  show f.1 ≠ key
  rcases known with same | same
  · exact same ▸ ne
  · exact same ▸ apart.symm

theorem shapeOf_reads (Good : β → Prop) (empty : Good unset)
    (reads : ∀ v x, body v = .ok x → Good x)
    (read : (shapeOf key unset body).decode false v = .ok (x, m)) : Good x := by
  refine (shapeOf key unset body).decode_induct (fun xm => Good xm.1) ?_ empty read
  intro xm k w xm' held set
  simp only [shapeOf] at set
  split at set <;> obtain ⟨value, here, rfl⟩ := put_eq_ok_iff.mp set
  · exact reads w value here
  · exact held

end

/-- An input or an output inside the part is not null. -/
def NoNull : Part → Prop
  | .toolRequest r _ => r.NoNull
  | .toolResponse r _ => r.NoNull
  | _ => True

section

variable {α : Type} {a : Except DecodeError α} {kind : α → Part}
  {b : Unit → Except DecodeError Part} {p : Part}

theorem orElse_of_not (fails : ∀ x, a ≠ .ok x) : orElse (a.map kind) b = b () := by
  cases a with
  | error err => rfl
  | ok x => exact absurd rfl (fails x)

theorem orElse_of_ok {x : α} (read : a = .ok x) : orElse (a.map kind) b = .ok (kind x) := by
  rw [read]
  rfl

theorem orElse_eq_ok (read : orElse (a.map kind) b = .ok p) :
    (∃ x, a = .ok x ∧ p = kind x) ∨ b () = .ok p := by
  cases a with
  | error err => exact .inr read
  | ok x => exact .inl ⟨x, rfl, (Except.ok.inj read).symm⟩

end

theorem decode_encode (p : Part) (noNull : p.NoNull) : decode p.encode = .ok p := by
  cases p with
  | text s m =>
    show decode (written "text" (.str s) m) = _
    rw [decode]
    have back : Decoder.text (.str s) = .ok s := rfl
    exact orElse_of_ok (decode_shapeOf (by decide) back)
  | media x m =>
    show decode (written "media" x.encode m) = _
    rw [decode, orElse_of_not fun _ => not_decode_shapeOf (by decide) (by decide)]
    exact orElse_of_ok (decode_shapeOf (by decide) x.decode_encode)
  | data v m =>
    show decode (written "data" v m) = _
    rw [decode, orElse_of_not fun _ => not_decode_shapeOf (by decide) (by decide),
      orElse_of_not fun _ => not_decode_shapeOf (by decide) (by decide)]
    exact orElse_of_ok (decode_shapeOf (by decide) rfl)
  | toolRequest r m =>
    show decode (written "toolRequest" r.encode m) = _
    rw [decode, orElse_of_not fun _ => not_decode_shapeOf (by decide) (by decide),
      orElse_of_not fun _ => not_decode_shapeOf (by decide) (by decide),
      orElse_of_not fun _ => not_decode_shapeOf (by decide) (by decide)]
    exact orElse_of_ok (decode_shapeOf (by decide) (r.decode_encode noNull))
  | toolResponse r m =>
    show decode (written "toolResponse" r.encode m) = _
    rw [decode, orElse_of_not fun _ => not_decode_shapeOf (by decide) (by decide),
      orElse_of_not fun _ => not_decode_shapeOf (by decide) (by decide),
      orElse_of_not fun _ => not_decode_shapeOf (by decide) (by decide),
      orElse_of_not fun _ => not_decode_shapeOf (by decide) (by decide)]
    exact orElse_of_ok (decode_shapeOf (by decide) (r.decode_encode noNull))
  | metadata m => rfl

theorem noNull_of_decode (v : Json) (p : Part) (read : decode v = .ok p) : p.NoNull := by
  rcases orElse_eq_ok read with ⟨⟨s, m⟩, -, rfl⟩ | read
  · trivial
  rcases orElse_eq_ok read with ⟨⟨x, m⟩, -, rfl⟩ | read
  · trivial
  rcases orElse_eq_ok read with ⟨⟨w, m⟩, -, rfl⟩ | read
  · trivial
  rcases orElse_eq_ok read with ⟨⟨r, m⟩, here, rfl⟩ | read
  · exact shapeOf_reads ToolRequest.NoNull ToolRequest.noNull_empty
      ToolRequest.noNull_of_decode here
  rcases orElse_eq_ok read with ⟨⟨r, m⟩, here, rfl⟩ | read
  · exact shapeOf_reads ToolResponse.NoNull ToolResponse.noNull_empty
      ToolResponse.noNull_of_decode here
  rcases orElse_eq_ok read with ⟨m, -, rfl⟩ | read
  · trivial
  · cases read

theorem recodes : Recodes decode encode := .of_readable noNull_of_decode decode_encode

end Part

/-! ### Messages -/

namespace Message

theorem regular : shape.Regular := ⟨by decide, by decide⟩

/-- The parts of a message that was read are read back. -/
theorem parts_of_decode (v : Json) (m : Message) (read : decode v = .ok m) :
    ∀ p ∈ m.content, Part.decode p.encode = .ok p := by
  refine shape.decode_induct (fun m => ∀ p ∈ m.content, Part.decode p.encode = .ok p)
    ?_ nofun read
  intro m key v m' held set
  simp only [shape] at set
  split at set <;> obtain ⟨value, here, rfl⟩ := put_eq_ok_iff.mp set
  · exact held
  · exact Part.recodes.of_mem_list here
  · exact held

theorem decode_of_parts (m : Message) (back : ∀ p ∈ m.content, Part.decode p.encode = .ok p) :
    decode m.encode = .ok m := by
  have content : Decoder.list Part.decode (.arr (m.content.map Part.encode)) = .ok m.content :=
    list_map back
  have setsRole : shape.set shape.empty "role" m.role.encode = .ok ⟨m.role, [], none⟩ := by
    simp only [shape, Role.decode_encode]
    rfl
  have setsContent : shape.set ⟨m.role, [], none⟩ "content" (.arr (m.content.map Part.encode)) =
      .ok ⟨m.role, m.content, none⟩ := by
    simp only [shape, content]
    rfl
  have fills : shape.Fills shape.keys shape.empty
      (("role", m.role.encode) :: ("content", .arr (m.content.map Part.encode)) ::
        (fieldOf "metadata" .obj m.metadata ++ [])) m :=
    .value setsRole <| .value setsContent <|
      .field (Message.mk m.role m.content) (kept_fields _) (fun _ => rfl) rfl .nil
  rw [List.append_nil] at fills
  exact fills.decode regular (by simp [shape, Table.keys]) false

theorem recodes : Recodes decode encode := .of_readable parts_of_decode decode_of_parts

end Message

namespace Document

theorem regular : shape.Regular := ⟨by decide, by decide⟩

/-- The parts of a document that was read are read back. -/
theorem parts_of_decode (v : Json) (d : Document) (read : decode v = .ok d) :
    ∀ p ∈ d.content, Part.decode p.encode = .ok p := by
  refine shape.decode_induct (fun d => ∀ p ∈ d.content, Part.decode p.encode = .ok p)
    ?_ nofun read
  intro d key v d' held set
  simp only [shape] at set
  split at set <;> obtain ⟨value, here, rfl⟩ := put_eq_ok_iff.mp set
  · exact Part.recodes.of_mem_list here
  · exact held

theorem decode_of_parts (d : Document) (back : ∀ p ∈ d.content, Part.decode p.encode = .ok p) :
    decode d.encode = .ok d := by
  have content : Decoder.list Part.decode (.arr (d.content.map Part.encode)) = .ok d.content :=
    list_map back
  have setsContent : shape.set shape.empty "content" (.arr (d.content.map Part.encode)) =
      .ok ⟨d.content, none⟩ := by
    simp only [shape, content]
    rfl
  have fills : shape.Fills shape.keys shape.empty
      (("content", .arr (d.content.map Part.encode)) ::
        (fieldOf "metadata" .obj d.metadata ++ [])) d :=
    .value setsContent <| .field (Document.mk d.content) (kept_fields _) (fun _ => rfl) rfl .nil
  rw [List.append_nil] at fills
  exact fills.decode regular (by simp [shape, Table.keys]) false

theorem recodes : Recodes decode encode := .of_readable parts_of_decode decode_of_parts

end Document

/-! ### The data of a caller -/

namespace RenderData

theorem regular : shape.Regular := ⟨by decide, by decide⟩

/-- The documents and the messages are read back. -/
structure Readable (d : RenderData) : Prop where
  docs : Kept (Decoder.optional (Decoder.list Document.decode))
    (fun ds => .arr (ds.map Document.encode)) d.docs
  messages : Kept (Decoder.optional (Decoder.list Message.decode)) encodeMessages d.messages

theorem readable_of_decode (v : Json) (d : RenderData) (read : decode v = .ok d) : d.Readable := by
  refine shape.decode_induct Readable ?_ ⟨kept_none _ _, kept_none _ _⟩ read
  intro d key v d' held set
  simp only [shape] at set
  split at set <;> obtain ⟨value, here, rfl⟩ := put_eq_ok_iff.mp set
  · exact ⟨held.docs, held.messages⟩
  · exact ⟨Document.recodes.list.optional nofun here, held.messages⟩
  · exact ⟨held.docs, Message.recodes.list.optional nofun here⟩
  · exact ⟨held.docs, held.messages⟩

theorem decode_encode (d : RenderData) (readable : d.Readable) : decode d.encode = .ok d := by
  have fills : shape.Fills shape.keys shape.empty
      (fieldOf "input" .obj d.input ++ (fieldOf "docs" (fun ds => .arr (ds.map Document.encode))
        d.docs ++ (fieldOf "messages" encodeMessages d.messages ++
          (fieldOf "context" .obj d.context ++ [])))) d :=
    .field (RenderData.mk · none none none) (kept_fields _) (fun _ => rfl) rfl <|
      .field (RenderData.mk d.input · none none) readable.docs (fun _ => rfl) rfl <|
      .field (RenderData.mk d.input d.docs · none) readable.messages (fun _ => rfl) rfl <|
      .field (RenderData.mk d.input d.docs d.messages) (kept_fields _) (fun _ => rfl) rfl .nil
  rw [List.append_nil] at fills
  simp only [encode, List.append_assoc]
  exact fills.decode regular (by simp [shape, Table.keys]) false

theorem recodes : Recodes decode encode := .of_readable readable_of_decode decode_encode

end RenderData

end Promptry
