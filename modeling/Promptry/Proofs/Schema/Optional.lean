import Promptry.Proofs.Schema.Reading

/-!
Optional fields. A field with a question mark has the property that it would have without, made
nullable (`expand_without_mark`). Of values other than null that property says the same. It allows
null if the type does or is widened, and so not if values are enumerated besides a type
(`listed_type_refuses_null`). Main statement: `valid_optional_iff`.
-/

namespace Promptry.Schema

variable {resolver : Option (Resolver Json)}

/-- How a value is read depends on the form that its key says, and on nothing else of the key. -/
theorem property_of_form {k k' : String} {v s : Json}
    (sameForm : (FieldKey.ofText k').form = (FieldKey.ofText k).form)
    (answer : (property resolver k v).result.1 = .ok s) :
    (property resolver k' v).result.1 = .ok s := by
  unfold property at answer ⊢
  rw [sameForm]
  split at answer
  · exact answer
  · split at answer
    · exact answer
    · cases answer
  · cases answer
  · exact answer

/-- A key in a form that can be read is not the one for all other fields. -/
theorem ne_wildcard_of_property {k : String} {v s : Json}
    (answer : (property resolver k v).result.1 = .ok s) : k ≠ wildcard := by
  rintro rfl
  have form : (FieldKey.ofText wildcard).form = .unknown "*" := by decide
  simp only [property, form] at answer
  cases answer

/-- The key `k'` is `k` without its question mark. -/
structure Unmarks (k' k : String) : Prop where
  marked : (FieldKey.ofText k).optional = true
  same : FieldKey.ofText k' = { FieldKey.ofText k with optional := false }

theorem Unmarks.field {k' k : String} (unmarks : Unmarks k' k) : k ≠ wildcard := by
  rintro rfl
  have notMarked : (FieldKey.ofText wildcard).optional = false := by decide
  cases notMarked.symm.trans unmarks.marked

/-- Without its question mark a field is read to the same, and its property is that schema, which
the question mark makes nullable. -/
theorem expand_without_mark {before after : Fields} {k k' : String} {v schema : Json}
    (unmarks : Unmarks k' k) (last : ∀ f ∈ after, nameOf? f.1 ≠ nameOf? k)
    (converts : (expand resolver (.obj (before ++ (k, v) :: after))).result.1 = .ok schema) :
    ∃ s schema', (property resolver k v).result.1 = .ok s ∧
      (expand resolver (.obj (before ++ (k', v) :: after))).result.1 = .ok schema' ∧
      propertyOf? schema (FieldKey.ofText k).name =
        some (nullable (describe (FieldKey.ofText k).description s)) ∧
      propertyOf? schema' (FieldKey.ofText k).name =
        some (describe (FieldKey.ofText k).description s) := by
  rw [result_expand_obj] at converts
  obtain ⟨d, answer, rfl⟩ := exists_of_map_eq_ok converts
  obtain ⟨s, read, here⟩ := get?_of_expandFields answer unmarks.field last
  have read' : (property resolver k' v).result.1 = .ok s :=
    property_of_form (by rw [unmarks.same]) read
  have field' : k' ≠ wildcard := ne_wildcard_of_property read'
  have sameName : nameOf? k' = nameOf? k := by
    rw [nameOf?, nameOf?, if_neg field', if_neg unmarks.field, unmarks.same]
  -- all other fields are there in both
  have readable := (expandFields_isOk_iff {} _).mp ⟨d, answer⟩
  rw [List.forall_mem_append, List.forall_mem_cons] at readable
  obtain ⟨d', answer'⟩ : ∃ d', (expandFields resolver {} (before ++ (k', v) :: after)).result.1 =
      .ok d' := by
    rw [expandFields_isOk_iff, List.forall_mem_append, List.forall_mem_cons]
    exact ⟨readable.1, ⟨s, by rw [reading, if_neg field', read']⟩, readable.2.2⟩
  obtain ⟨s', again, here'⟩ := get?_of_expandFields answer' field' (sameName ▸ last)
  obtain rfl : s = s' := Except.ok.inj (read'.symm.trans again)
  refine ⟨s, d'.schema, read, ?_, ?_, ?_⟩
  · rw [result_expand_obj, answer']
    rfl
  · rw [propertyOf?_schema, here, ObjectDraft.added, if_pos unmarks.marked]
  · rw [unmarks.same] at here'
    rw [propertyOf?_schema, here']
    rfl

theorem result_expand_found {t : String} {ss : Json} (found : Finds resolver t ss) :
    (expand resolver (.str t)).result.1 = .ok (describe (noteIn t) ss) := by
  rw [expand_text, result_map, if_neg fun mem => found.1 (List.contains_iff_mem.mp mem),
    named_eq_ok_iff.mpr found.2]
  rfl

/-- A field for whose type an object is found is read to an object. -/
theorem property_of_found {k t : String} {ss : Fields} {s : Json}
    (found : Finds resolver t (.obj ss)) (read : (property resolver k (.str t)).result.1 = .ok s) :
    ∃ fs, s = .obj fs := by
  have inner := result_expand_found found
  obtain ⟨gs, described, -⟩ := describe_obj (noteIn t) ss
  rw [described] at inner
  cases form : (FieldKey.ofText k).form with
  | enumeration | unknown word =>
    simp only [property, form] at read
    cases read
  | array | plain | object =>
    rw [result_property (by simp [form]), inner, form] at read
    cases read
    exact ⟨_, rfl⟩

/-- An optional field, for whose type an object schema is found, has a property, if no later field
bears its name. Of values other than null this says what the property of the field without the
question mark does. It allows null if the type of that property does or is widened. -/
theorem valid_optional_iff {before after : Fields} {k k' t : String} {ss : Fields} {schema : Json}
    (unmarks : Unmarks k' k) (found : Finds resolver t (.obj ss))
    (last : ∀ f ∈ after, nameOf? f.1 ≠ nameOf? k)
    (converts : (expand resolver (.obj (before ++ (k, .str t) :: after))).result.1 = .ok schema) :
    ∃ schema' p gs,
      (expand resolver (.obj (before ++ (k', .str t) :: after))).result.1 = .ok schema' ∧
      propertyOf? schema (FieldKey.ofText k).name = some p ∧
      propertyOf? schema' (FieldKey.ofText k).name = some (.obj gs) ∧
      (∀ x, x ≠ .null → (Valid p x ↔ Valid (.obj gs) x)) ∧
      (Valid p .null ↔ TypeAllows gs .null ∨ TypeWidened gs) := by
  obtain ⟨s, schema', read, converts', here, here'⟩ := expand_without_mark unmarks last converts
  obtain ⟨fs, rfl⟩ := property_of_found found read
  obtain ⟨gs, described, -⟩ := describe_obj (FieldKey.ofText k).description fs
  rw [described] at here here'
  exact ⟨schema', _, gs, converts', here, here', fun x other => valid_nullable_of_ne_null other,
    valid_nullable_null⟩

/-- Finds one schema, under one name. -/
def findsOnly (name : String) (s : Json) : Option (Resolver Json) :=
  some fun asked => if asked = name then .found s else .missing

/-- A schema of two types, for a field with a description between two others. -/
theorem valid_optional_iff_id :
    let resolver := findsOnly "Id" (.obj [("type", .arr [.str "string", .str "integer"])])
    let before : Fields := [("a", .str "any")]
    let after : Fields := [("b", .str "Id")]
    Unmarks "id(object, Who)" "id?(object, Who)" ∧
    ∃ schema schema' p gs,
      (expand resolver (.obj (before ++ ("id?(object, Who)", .str "Id") :: after))).result.1 =
        .ok schema ∧
      (expand resolver (.obj (before ++ ("id(object, Who)", .str "Id") :: after))).result.1 =
        .ok schema' ∧
      propertyOf? schema "id" = some p ∧ propertyOf? schema' "id" = some (.obj gs) ∧
      (∀ x, x ≠ .null → (Valid p x ↔ Valid (.obj gs) x)) ∧
      (Valid p .null ↔ TypeAllows gs .null ∨ TypeWidened gs) := by
  intro resolver before after
  have unmarks : Unmarks "id(object, Who)" "id?(object, Who)" := ⟨by decide, by decide⟩
  have found : Finds resolver "Id" (.obj [("type", .arr [.str "string", .str "integer"])]) :=
    ⟨by decide, _, rfl, rfl⟩
  have name : (FieldKey.ofText "id?(object, Who)").name = "id" := by decide
  have whole := @valid_optional_iff resolver before after _ _ _ _ _ unmarks found (by decide) rfl
  rw [name] at whole
  obtain ⟨schema', p, gs, means⟩ := whole
  exact ⟨unmarks, _, schema', p, gs, rfl, means⟩

/-- Null is among the enumerated values, but still not of the type. -/
theorem listed_type_refuses_null :
    let found : Json := .obj [("type", .str "string"), ("enum", .arr [.str "a"])]
    let property : Json := .obj [("type", .str "string"), ("enum", .arr [.str "a", .null])]
    (ofShorthand (findsOnly "T" found) (.obj [("x?", .str "T")])).result.1 =
        .ok (some (.obj [("type", .str "object"), ("properties", .obj [("x", property)]),
          ("additionalProperties", .bool false)])) ∧
      ¬ Valid property .null := by
  refine ⟨rfl, fun valid => ?_⟩
  have hasType := (typeAllows_str_iff rfl _).mp valid.typeAllows
  exact absurd (hasType_iff (by decide) _ |>.mp hasType) (by decide)

end Promptry.Schema
