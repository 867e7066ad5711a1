import Promptry.Proofs.Schema.Reading
import Promptry.Proofs.Table

/-!
Values inside an object shorthand, and the same values alone. Alone a JSON Schema stands for itself,
but inside an object it is read as a shorthand once more: its keywords become properties, one of
them required (`required_of_jsonSchema`). All other values become the same in both places. Main
statement: `nested_property_iff`.
-/

namespace Promptry.Schema

variable {resolver : Option (Resolver Json)}

/-! ### What is left of a schema in a property -/

/-- Descriptions and null touch three keywords only. -/
theorem get?_added (key : FieldKey) (fs : Fields) {keyword : String}
    (other : keyword ∉ ["type", "enum", "description"]) :
    ∃ gs, ObjectDraft.added key (.obj fs) = .obj gs ∧
      Fields.get? gs keyword = Fields.get? fs keyword := by
  obtain ⟨ds, described, kept⟩ := describe_obj key.description fs
  have keptHere : Fields.get? ds keyword = Fields.get? fs keyword := by
    apply kept
    rintro rfl
    exact other (by decide)
  rw [ObjectDraft.added, described]
  split
  · obtain ⟨gs, same, widens⟩ := nullable_obj ds
    exact ⟨gs, same, (widens.same keyword other).trans keptHere⟩
  · exact ⟨ds, rfl, keptHere⟩

theorem get?_eq_of_added {key : FieldKey} {fs gs : Fields} {keyword : String}
    (same : ObjectDraft.added key (.obj fs) = ObjectDraft.added key (.obj gs))
    (other : keyword ∉ ["type", "enum", "description"]) :
    Fields.get? fs keyword = Fields.get? gs keyword := by
  obtain ⟨fs', added, kept⟩ := get?_added key fs other
  obtain ⟨gs', added', kept'⟩ := get?_added key gs other
  rw [added, added', Json.obj.injEq] at same
  rw [← kept, ← kept', same]

/-- Fields whose values have different required fields do not have the same property. -/
theorem get?_required_of_added {key : FieldKey} {fs gs : Fields}
    (same : ObjectDraft.added key (key.form.around (.obj fs)) =
      ObjectDraft.added key (key.form.around (.obj gs))) :
    Fields.get? fs "required" = Fields.get? gs "required" := by
  have around : key.form.around (.obj fs) = .obj fs ∧ key.form.around (.obj gs) = .obj gs ∨
      key.form = .array := by
    cases key.form with
    | array => exact .inr rfl
    | _ => exact .inl ⟨rfl, rfl⟩
  rcases around with ⟨here, here'⟩ | array
  · rw [here, here'] at same
    exact get?_eq_of_added same (by decide)
  · rw [array] at same
    have items : some (Json.obj fs) = some (Json.obj gs) :=
      @get?_eq_of_added key _ _ "items" same (by decide)
    rw [Option.some.injEq, Json.obj.injEq] at items
    rw [items]

/-! ### A JSON Schema read as a shorthand -/

/-- The keys that tell a JSON Schema are plain names of required fields. -/
theorem exists_key_of_isJsonSchema {fs : Fields} (shaped : isJsonSchema (.obj fs) = true) :
    ∃ f ∈ fs, isRequired f.1 = true := by
  have plain : ∀ key ∈ ["type", "properties"], isRequired key = true := by decide
  have there : ∃ key ∈ ["type", "properties"], Fields.contains fs key = true := by
    simpa [isJsonSchema] using shaped
  obtain ⟨key, known, contained⟩ := there
  obtain ⟨w, here⟩ := Option.isSome_iff_exists.mp contained
  exact ⟨(key, w), Table.mem_of_get? here, plain key known⟩

/-- A JSON Schema read as a shorthand requires a field, and so cannot have required fields of its
own. -/
theorem required_of_jsonSchema {fs : Fields} {inner : Json}
    (shaped : isJsonSchema (.obj fs) = true)
    (read : (expand resolver (.obj fs)).result.1 = .ok inner) :
    ∃ gs, inner = .obj gs ∧ Fields.get? gs "required" ≠ Fields.get? fs "required" := by
  rw [result_expand_obj] at read
  obtain ⟨d, answer, rfl⟩ := exists_of_map_eq_ok read
  obtain ⟨gs, same, -, -, -, -, required, -⟩ := d.schema_eq
  refine ⟨gs, same, fun own => ?_⟩
  obtain ⟨f, mem, needed⟩ := exists_key_of_isJsonSchema shaped
  have names : d.required.reverse = requiredNames fs := required_of_expandFields answer
  have nonempty : d.required ≠ [] := by
    rw [Ne, ← List.reverse_eq_nil_iff, names]
    exact List.ne_nil_of_mem (mem_requiredNames.mpr ⟨f, mem, needed, nameOf?_of_required needed⟩)
  rw [if_neg nonempty, own] at required
  -- a list is no shorthand
  obtain ⟨s, refused⟩ := (expandFields_isOk_iff {} fs).mp ⟨d, answer⟩ ("required", _)
    (Table.mem_of_get? required)
  have field : "required" ≠ wildcard := by decide
  have form : (FieldKey.ofText "required").form ∈ [Form.plain, .array, .object] := by decide
  rw [reading, if_neg field, result_property form] at refused
  cases refused

/-! ### Inside and alone -/

/-- What a value alone becomes, if it is no JSON Schema, is what it is expanded to. -/
theorem expand_of_alone {v s : Json} (shorthand : isJsonSchema v = false)
    (alone : (ofShorthand resolver v).result.1 = .ok (some s)) :
    (expand resolver v).result.1 = .ok s := by
  have notNull : v ≠ .null := by
    rintro rfl
    cases alone
  rw [ofShorthand_eq_expand shorthand notNull, result_map] at alone
  obtain ⟨s', read, same⟩ := exists_of_map_eq_ok alone
  rwa [← Option.some.inj same]

/-- A JSON Schema becomes something else inside an object than alone. -/
theorem required_of_alone {v s inner : Json} (shaped : isJsonSchema v = true)
    (alone : (ofShorthand resolver v).result.1 = .ok (some s))
    (read : (expand resolver v).result.1 = .ok inner) :
    ∃ fs gs, s = .obj fs ∧ inner = .obj gs ∧
      Fields.get? gs "required" ≠ Fields.get? fs "required" := by
  cases v with
  | obj fs =>
    obtain ⟨gs, rfl, differs⟩ := required_of_jsonSchema shaped read
    have sameRequired : Fields.get? (withType fs) "required" = Fields.get? fs "required" := by
      rw [withType]
      split
      · rfl
      · exact Fields.get?_insert_of_ne (by decide) fs _
    rw [ofShorthand, if_pos shaped] at alone
    cases alone
    exact ⟨withType fs, gs, rfl, rfl, sameRequired ▸ differs⟩
  | _ => cases shaped

/-- The property of a field is that of what its value is expanded to. It is that of what the value
becomes alone if and only if the value is no JSON Schema already. -/
theorem nested_property_iff {before after : Fields} {k : String} {v schema s : Json}
    (shorthand : isJsonSchema (.obj (before ++ (k, v) :: after)) = false)
    (simple : (FieldKey.ofText k).form ∈ [Form.plain, .array, .object])
    (last : ∀ f ∈ after, nameOf? f.1 ≠ nameOf? k)
    (whole : (ofShorthand resolver (.obj (before ++ (k, v) :: after))).result.1 = .ok (some schema))
    (alone : (ofShorthand resolver v).result.1 = .ok (some s)) :
    ∃ inner, (expand resolver v).result.1 = .ok inner ∧
      propertyOf? schema (FieldKey.ofText k).name =
        some (ObjectDraft.added (FieldKey.ofText k) ((FieldKey.ofText k).form.around inner)) ∧
      (propertyOf? schema (FieldKey.ofText k).name =
          some (ObjectDraft.added (FieldKey.ofText k) ((FieldKey.ofText k).form.around s)) ↔
        isJsonSchema v = false) := by
  have field : k ≠ wildcard := by
    rintro rfl
    exact absurd simple (by decide)
  have made := expand_of_alone shorthand whole
  rw [result_expand_obj] at made
  obtain ⟨d, answer, rfl⟩ := exists_of_map_eq_ok made
  obtain ⟨p, read, here⟩ := get?_of_expandFields answer field last
  rw [result_property simple] at read
  obtain ⟨inner, expanded, rfl⟩ := exists_of_map_eq_ok read
  rw [propertyOf?_schema, here]
  refine ⟨inner, expanded, rfl, ?_⟩
  constructor
  · intro same
    by_cases shaped : isJsonSchema v = true
    · obtain ⟨fs, gs, rfl, rfl, differs⟩ := required_of_alone shaped alone expanded
      exact absurd (get?_required_of_added (Option.some.inj same)) differs
    · exact Bool.eq_false_iff.mpr shaped
  · intro notShaped
    rw [Except.ok.inj (expanded.symm.trans (expand_of_alone notShaped alone))]

/-- A list of places, in the shorthand of objects. -/
theorem nested_property_iff_places :
    let places : Json := .obj [("street", .str "string"), ("(*)", .str "any")]
    let alone : Json := .obj [("type", .str "object"),
      ("properties", .obj [("street", .obj [("type", .str "string")])]),
      ("required", .arr [.str "street"]), ("additionalProperties", .obj [])]
    let property : Json := .obj [("type", .arr [.str "array", .str "null"]), ("items", alone),
      ("description", .str "Places")]
    let whole : Json := .obj [("type", .str "object"),
      ("properties", .obj [("name", .obj [("type", .str "string")]), ("at", property)]),
      ("required", .arr [.str "name"]), ("additionalProperties", .bool false)]
    (ofShorthand none places).result.1 = .ok (some alone) ∧
    (ofShorthand none (.obj [("name", .str "string"), ("at?(array, Places)", places)])).result.1 =
      .ok (some whole) ∧
    (propertyOf? whole "at" = some property ↔ isJsonSchema places = false) := by
  intro places alone property whole
  have key : FieldKey.ofText "at?(array, Places)" = ⟨"at", true, .array, some "Places"⟩ := by
    decide
  have converts : (ofShorthand none places).result.1 = .ok (some alone) := rfl
  have convertsWhole : (ofShorthand none (.obj ([("name", .str "string")] ++
      ("at?(array, Places)", places) :: []))).result.1 = .ok (some whole) := rfl
  obtain ⟨inner, -, -, same⟩ :=
    nested_property_iff rfl (by rw [key]; decide) (by simp) convertsWhole converts
  rw [key] at same
  exact ⟨converts, convertsWhole, same⟩

/-- A JSON Schema stays as it is alone, but not as a property, nor as the items of one. -/
theorem jsonSchema_nested :
    let v : Json := .obj [("type", .str "string")]
    let inner : Json := .obj [("type", .str "object"), ("properties", .obj [("type", v)]),
      ("required", .arr [.str "type"]), ("additionalProperties", .bool false)]
    (ofShorthand none v).result.1 = .ok (some v) ∧
      (ofShorthand none (.obj [("a", v), ("b(array)", v)])).result.1 =
        .ok (some (.obj [("type", .str "object"),
          ("properties", .obj [("a", inner),
            ("b", .obj [("type", .str "array"), ("items", inner)])]),
          ("required", .arr [.str "a", .str "b"]), ("additionalProperties", .bool false)])) ∧
      inner ≠ v := by
  refine ⟨rfl, rfl, ?_⟩
  intro same
  exact absurd (congrArg List.length (Json.obj.inj same)) (by decide)

end Promptry.Schema
