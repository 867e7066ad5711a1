import Promptry.Proofs.Codec.Record
import Promptry.Store.Basic

/-!
Reading back what a store takes and answers. Every one of these records is read back, whatever it
holds. Main statements: `decode_encode` for references, stored prompts, options and pages.
-/

namespace Promptry

namespace Reference

theorem regular : shape.Regular := ⟨by decide, by decide⟩

theorem fills (r : Reference) : shape.Fills shape.keys shape.empty r.fields r := by
  have fills : shape.Fills shape.keys shape.empty
      (("name", .str r.name) :: (fieldOf "variant" .str r.variant ++
        (fieldOf "version" .str r.version ++ []))) r :=
    .value rfl <| .field (Reference.mk r.name · none) (kept_text _) (fun _ => rfl) rfl <|
      .field (Reference.mk r.name r.variant) (kept_text _) (fun _ => rfl) rfl .nil
  rwa [List.append_nil] at fills

theorem decode_fields (r : Reference) (collected : Bool) :
    shape.decode collected (.obj r.fields) = .ok r :=
  r.fills.decode regular (by simp [shape, fields, Table.keys]) collected

theorem decode_encode (r : Reference) : decode r.encode = .ok r := r.decode_fields false

end Reference

namespace StoredPrompt

theorem decode_encode (p : StoredPrompt) : decode p.encode = .ok p := by
  have apart : "source" ∉ Fields.keys p.reference.fields := fun mem =>
    absurd (p.reference.fills.ordered.subset mem) (by decide)
  exact put_eq_ok_iff.mpr
    ⟨_, decodeBeside_written rfl (p.reference.decode_fields true) apart, rfl⟩

end StoredPrompt

namespace LoadOptions

theorem regular : shape.Regular := ⟨by decide, by decide⟩

theorem decode_encode (o : LoadOptions) : decode o.encode = .ok o := by
  have fills : shape.Fills shape.keys shape.empty (fieldOf "variant" .str o.variant ++ []) o :=
    .field LoadOptions.mk (kept_text _) (fun _ => rfl) rfl .nil
  rw [List.append_nil] at fills
  exact fills.decode regular nofun false

end LoadOptions

namespace ListOptions

theorem regular : shape.Regular := ⟨by decide, by decide⟩

theorem decode_encode (o : ListOptions) : decode o.encode = .ok o := by
  have fills : shape.Fills shape.keys shape.empty
      (fieldOf "cursor" .str o.cursor ++ (fieldOf "limit" Json.ofNat o.limit ++ [])) o :=
    .field (ListOptions.mk · none) (kept_text _) (fun _ => rfl) rfl <|
      .field (ListOptions.mk o.cursor) (kept_natural _) (fun _ => rfl) rfl .nil
  rw [List.append_nil] at fills
  exact fills.decode regular nofun false

end ListOptions

namespace Page

theorem regular : shape.Regular := ⟨by decide, by decide⟩

theorem decode_encode (p : Page) : decode p.encode = .ok p := by
  have items : Decoder.list Reference.decode (.arr (p.items.map Reference.encode)) = .ok p.items :=
    list_map fun r _ => r.decode_encode
  have setsItems : shape.set shape.empty "items" (.arr (p.items.map Reference.encode)) =
      .ok ⟨p.items, none⟩ := by
    simp only [shape, items]
    rfl
  have fills : shape.Fills shape.keys shape.empty
      (("items", .arr (p.items.map Reference.encode)) ::
        (fieldOf "cursor" .str p.cursor ++ [])) p :=
    .value setsItems <| .field (Page.mk p.items) (kept_text _) (fun _ => rfl) rfl .nil
  rw [List.append_nil] at fills
  exact fills.decode regular (by simp [shape, Table.keys]) false

end Page

end Promptry
