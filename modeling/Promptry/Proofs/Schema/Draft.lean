import Promptry.Proofs.Schema.Meaning

/-!
The schemas that a conversion builds, and what is valid under them. A description says nothing
(`valid_describe`), a schema made nullable allows null in addition (`valid_nullable`), and an object
schema allows what its draft admits (`ObjectDraft.valid_schema`). Main statement:
`ObjectDraft.admits_addProperty`, that a property put into a draft stands for its field.
-/

namespace Promptry.Schema

/-! ### Descriptions -/

/-- A description changes no other keyword. -/
theorem describe_obj (description : Option String) (fs : Fields) :
    ∃ gs, describe description (.obj fs) = .obj gs ∧
      ∀ key, key ≠ "description" → Fields.get? gs key = Fields.get? fs key := by
  cases description with
  | none => exact ⟨fs, rfl, fun _ _ => rfl⟩
  | some d => exact ⟨_, rfl, fun key other => Fields.get?_insert_of_ne other fs _⟩

/-- A description says nothing of values. -/
theorem valid_describe (description : Option String) (schema x : Json) :
    Valid (describe description schema) x ↔ Valid schema x := by
  cases schema with
  | obj fs =>
    obtain ⟨gs, described, kept⟩ := describe_obj description fs
    rw [described]
    constructor
    · exact Valid.congr fun key other => (kept key other).symm
    · exact Valid.congr kept
  | _ => cases description <;> exact Iff.rfl

/-! ### Null in addition -/

/-- Schemas that allow values by their type or by listing them, but not by both. -/
inductive Widenable : Json → Prop where
  | untyped {fs : Fields} : Fields.get? fs "type" = none → Fields.get? fs "enum" = none →
      Widenable (.obj fs)
  | typed {fs : Fields} {type : String} : Fields.get? fs "type" = some (.str type) →
      Fields.get? fs "enum" = none → Widenable (.obj fs)
  | listed {fs : Fields} {members : List Json} : Fields.get? fs "type" = none →
      Fields.get? fs "enum" = some (.arr members) → Widenable (.obj fs)

theorem Widenable.describe {schema : Json} (widenable : Widenable schema)
    (description : Option String) : Widenable (describe description schema) := by
  obtain ⟨fs, rfl⟩ : ∃ fs, schema = .obj fs := by
    cases widenable <;> exact ⟨_, rfl⟩
  obtain ⟨gs, described, kept⟩ := describe_obj description fs
  have type := kept "type" (by decide)
  have enum := kept "enum" (by decide)
  rw [described]
  cases widenable with
  | untyped noType noEnum => exact .untyped (type.trans noType) (enum.trans noEnum)
  | typed hasType noEnum => exact .typed (type.trans hasType) (enum.trans noEnum)
  | listed noType lists => exact .listed (type.trans noType) (enum.trans lists)

theorem isNull_eq_true_iff {x : Json} : isNull x = true ↔ x = .null := by
  cases x <;> simp [isNull]

theorem isNullType_eq_true_iff {x : Json} : isNullType x = true ↔ x = .str "null" := by
  cases x <;> simp [isNullType]

theorem get?_retyped (fs : Fields) {keyword : String} (value : Json)
    (own : keyword ∈ ["type", "enum"]) : ∀ key ∉ ["type", "enum", "description"],
      Fields.get? (Fields.insert fs keyword value) key = Fields.get? fs key := by
  intro key other
  refine Fields.get?_insert_of_ne ?_ fs value
  rintro rfl
  exact other (List.mem_append_left ["description"] own)

/-- Null is added to the type: it is a text or a list, and no list of values stands in the way. -/
def TypeWidened (fs : Fields) : Prop :=
  (∀ members, Fields.get? fs "enum" ≠ some (.arr members)) ∧
    ∃ types, Fields.get? fs "type" = some types ∧
      ((∃ type, types = .str type) ∨ ∃ list, types = .arr list)

/-- What is changed to allow null: the enumerated values if there are some, or else the type. -/
structure Widens (fs gs : Fields) : Prop where
  same : ∀ key ∉ ["type", "enum", "description"], Fields.get? gs key = Fields.get? fs key
  type : ∀ x, TypeAllows gs x ↔ TypeAllows fs x ∨ x = .null ∧ TypeWidened fs
  enum : ∀ x, EnumAllows gs x ↔ EnumAllows fs x ∨ x = .null

section

variable {fs : Fields}

/-- Enumerated values let null in if it is added to them. -/
theorem widens_members {members : List Json}
    (lists : Fields.get? fs "enum" = some (.arr members)) :
    Widens fs (Fields.insert fs "enum" (.arr (members ++ [.null]))) := by
  refine ⟨get?_retyped fs _ (by decide), fun x => ?_, fun x => ?_⟩
  · have sameType : Fields.get? (Fields.insert fs "enum" (.arr (members ++ [.null]))) "type" =
        Fields.get? fs "type" := Fields.get?_insert_of_ne (by decide) fs _
    have notWidened : ¬ TypeWidened fs := fun widened => widened.1 members lists
    simp [TypeAllows, sameType, notWidened]
  · rw [enumAllows_iff (Fields.get?_insert_self fs _ _), enumAllows_iff lists]
    simp [or_and_right, exists_or, equal_null_iff]

/-- Enumerated values with null among them stay as they are. -/
theorem widens_of_member {members : List Json}
    (lists : Fields.get? fs "enum" = some (.arr members)) (hasNull : .null ∈ members) :
    Widens fs fs := by
  refine ⟨fun _ _ => rfl, fun x => ?_, fun x => ?_⟩
  · have notWidened : ¬ TypeWidened fs := fun widened => widened.1 members lists
    simp [notWidened]
  · rw [enumAllows_iff lists]
    constructor
    · exact .inl
    · rintro (allows | rfl)
      · exact allows
      · exact ⟨.null, hasNull, .null⟩

variable (free : ∀ members, Fields.get? fs "enum" ≠ some (.arr members))
include free

theorem enumAllows_of_free (x : Json) : EnumAllows fs x :=
  fun members here => absurd here (free members)

/-- A type lets null in if it is added to it. -/
theorem widens_type {types widened : Json} (here : Fields.get? fs "type" = some types)
    (kind : (∃ type, types = .str type) ∨ ∃ list, types = .arr list)
    (adds : ∀ x, AllowsType widened x ↔ AllowsType types x ∨ x = .null) :
    Widens fs (Fields.insert fs "type" widened) := by
  refine ⟨get?_retyped fs _ (by decide), fun x => ?_, fun x => ?_⟩
  · have isWidened : TypeWidened fs := ⟨free, types, here, kind⟩
    rw [typeAllows_iff (Fields.get?_insert_self fs _ _), typeAllows_iff here, adds]
    simp [isWidened]
  · have sameEnum : Fields.get? (Fields.insert fs "type" widened) "enum" =
        Fields.get? fs "enum" := Fields.get?_insert_of_ne (by decide) fs _
    refine iff_of_true ?_ (.inl (enumAllows_of_free free x))
    exact enumAllows_of_free (fun members => sameEnum ▸ free members) x

/-- A type that allows null, or that nothing can be added to, stays as it is. -/
theorem widens_of_type (stays : TypeWidened fs → TypeAllows fs .null) : Widens fs fs := by
  refine ⟨fun _ _ => rfl, fun x => ?_, fun x => ?_⟩
  · constructor
    · exact .inl
    · rintro (allows | ⟨rfl, isWidened⟩)
      · exact allows
      · exact stays isWidened
  · exact iff_of_true (enumAllows_of_free free x) (.inl (enumAllows_of_free free x))

/-- Without enumerated values it is the type that null is added to. -/
theorem widens_of_free : ∃ gs, nullable (.obj fs) = .obj gs ∧ Widens fs gs := by
  -- nothing is listed, so the type is looked at
  simp only [nullable]
  split
  · rename_i t here
    split
    · rename_i isNull
      refine ⟨fs, rfl, widens_of_type free fun _ => (typeAllows_str_iff here _).mpr ?_⟩
      rw [isNull]
      exact hasType_null.mpr rfl
    · refine ⟨_, rfl, widens_type free here (.inl ⟨t, rfl⟩) fun x => ?_⟩
      simp [AllowsType, or_and_right, exists_or, hasType_null]
  · rename_i types here
    split
    · rename_i hasNull
      obtain ⟨type, mem, isNull⟩ := List.any_eq_true.mp hasNull
      rw [isNullType_eq_true_iff.mp isNull] at mem
      refine ⟨fs, rfl, widens_of_type free fun _ => (typeAllows_iff here _).mpr ?_⟩
      exact ⟨"null", mem, hasType_null.mpr rfl⟩
    · refine ⟨_, rfl, widens_type free here (.inr ⟨types, rfl⟩) fun x => ?_⟩
      simp [AllowsType, or_and_right, exists_or, hasType_null]
  · rename_i noText noList
    refine ⟨fs, rfl, widens_of_type free ?_⟩
    rintro ⟨-, types, here, ⟨t, rfl⟩ | ⟨list, rfl⟩⟩
    · exact absurd here (noText t)
    · exact absurd here (noList list)

end

/-- A schema made nullable is widened. -/
theorem nullable_obj (fs : Fields) : ∃ gs, nullable (.obj fs) = .obj gs ∧ Widens fs gs := by
  by_cases lists : ∃ members, Fields.get? fs "enum" = some (.arr members)
  · obtain ⟨members, lists⟩ := lists
    by_cases hasNull : members.any isNull = true
    · obtain ⟨m, mem, null⟩ := List.any_eq_true.mp hasNull
      rw [isNull_eq_true_iff.mp null] at mem
      exact ⟨fs, by simp [nullable, lists, hasNull], widens_of_member lists mem⟩
    · exact ⟨_, by simp [nullable, lists, hasNull], widens_members lists⟩
  · exact widens_of_free fun members here => lists ⟨members, here⟩

/-- Of values other than null a schema made nullable says what it did. -/
theorem valid_nullable_of_ne_null {fs : Fields} {x : Json} (other : x ≠ .null) :
    Valid (nullable (.obj fs)) x ↔ Valid (.obj fs) x := by
  obtain ⟨gs, same, widens⟩ := nullable_obj fs
  rw [same]
  apply Valid.reworded_iff widens.same
  · simp [widens.type, other]
  · simp [widens.enum, other]

/-- A schema made nullable allows null if its type did, or was widened. -/
theorem valid_nullable_null {fs : Fields} :
    Valid (nullable (.obj fs)) .null ↔ TypeAllows fs .null ∨ TypeWidened fs := by
  obtain ⟨gs, same, widens⟩ := nullable_obj fs
  rw [same, Valid.null_iff, widens.type, widens.enum]
  simp

/-- A schema made nullable allows null in addition. -/
theorem valid_nullable {schema : Json} (widenable : Widenable schema) (x : Json) :
    Valid (nullable schema) x ↔ x = .null ∨ Valid schema x := by
  obtain ⟨fs, rfl, allowsNull⟩ :
      ∃ fs, schema = .obj fs ∧ (TypeAllows fs .null ∨ TypeWidened fs) := by
    cases widenable with
    | untyped noType noEnum => exact ⟨_, rfl, .inl (typeAllows_of_none noType _)⟩
    | typed hasType noEnum =>
      exact ⟨_, rfl, .inr ⟨by simp [noEnum], _, hasType, .inl ⟨_, rfl⟩⟩⟩
    | listed noType lists => exact ⟨_, rfl, .inl (typeAllows_of_none noType _)⟩
  by_cases null : x = .null
  · subst null
    exact iff_of_true (valid_nullable_null.mpr allowsNull) (.inl rfl)
  · rw [valid_nullable_of_ne_null null]
    simp [null]

/-! ### Drafts -/

namespace ObjectDraft

/-- The objects whose fields are as the properties say, with none of the required ones missing. -/
structure Admits (d : ObjectDraft) (ys : Fields) : Prop where
  declared : ∀ key s y, Fields.get? d.properties key = some s → Fields.get? ys key = some y →
    Valid s y
  required : ∀ name ∈ d.required, Fields.contains ys name = true

/-- The fields of the schema of a draft. -/
theorem schema_eq (d : ObjectDraft) : ∃ fs : Fields, d.schema = .obj fs ∧
    Fields.get? fs "type" = some (.str "object") ∧ Fields.get? fs "enum" = none ∧
    Fields.get? fs "items" = none ∧ Fields.get? fs "properties" = some (.obj d.properties) ∧
    Fields.get? fs "required" =
      (if d.required = [] then none else some (.arr (d.required.reverse.map Json.str))) ∧
    Fields.get? fs "additionalProperties" = some d.additional := by
  refine ⟨_, rfl, ?_⟩
  cases h : d.required with
  | nil => simp [Table.get?]
  | cons name names => simp [Table.get?]

/-- An object schema allows the objects that its draft admits, if the fields that are no properties
are valid under the additional schema. -/
theorem valid_schema (d : ObjectDraft) (x : Json) : Valid d.schema x ↔
    ∃ ys, x = .obj ys ∧ d.Admits ys ∧
      ∀ key y, Fields.get? ys key = some y → Fields.get? d.properties key = none →
        Valid d.additional y := by
  obtain ⟨fs, same, type, noEnum, noItems, properties, required, additional⟩ := d.schema_eq
  have declares (key : String) : ¬ Declares fs key ↔ Fields.get? d.properties key = none := by
    simp [Declares, properties, Option.eq_none_iff_forall_ne_some]
  rw [same]
  constructor
  · intro valid
    obtain ⟨ys, rfl⟩ := hasType_object.mp ((typeAllows_str_iff type x).mp valid.typeAllows)
    cases valid with
    | keywords _ _ _ allProperties allRequired allAdditional =>
      refine ⟨ys, rfl, ⟨?_, ?_⟩, ?_⟩
      · exact fun key s y here => allProperties _ ys key s y properties rfl here
      · intro name mem
        rw [if_neg (List.ne_nil_of_mem mem)] at required
        exact allRequired _ ys name required rfl (by simpa using mem)
      · intro key y here free
        exact allAdditional _ ys key y additional rfl here ((declares key).mpr free)
  · rintro ⟨ys, rfl, admits, others⟩
    refine .keywords ((typeAllows_str_iff type _).mpr (hasType_object.mpr ⟨ys, rfl⟩))
      (enumAllows_of_none noEnum _) ?_ ?_ ?_ ?_
    · intro s zs here
      rw [noItems] at here
      cases here
    · intro ps zs key s y here sameObject
      cases properties.symm.trans here
      cases sameObject
      exact admits.declared key s y
    · intro names zs name here sameObject mem
      cases sameObject
      rw [required] at here
      split at here
      · cases here
      · cases here
        exact admits.required name (by simpa using mem)
    · intro s zs key y here sameObject found free
      cases additional.symm.trans here
      cases sameObject
      exact others key y found ((declares key).mp free)

theorem widenable_schema (d : ObjectDraft) : Widenable d.schema := by
  obtain ⟨fs, same, type, noEnum, -⟩ := d.schema_eq
  rw [same]
  exact .typed type noEnum

theorem admits_additional (d : ObjectDraft) (additional : Json) (ys : Fields) :
    { d with additional }.Admits ys ↔ d.Admits ys :=
  ⟨fun admits => ⟨admits.declared, admits.required⟩,
    fun admits => ⟨admits.declared, admits.required⟩⟩

/-- The schema of the property that a field adds. -/
def added (key : FieldKey) (property : Json) : Json :=
  if key.optional then nullable (describe key.description property)
  else describe key.description property

theorem properties_addProperty (d : ObjectDraft) (key : FieldKey) (property : Json) :
    (d.addProperty key property).properties =
      Fields.insert d.properties key.name (added key property) := rfl

theorem get?_addProperty (d : ObjectDraft) (key : FieldKey) (property : Json) (name : String) :
    Fields.get? (d.addProperty key property).properties name = none ↔
      Fields.get? d.properties name = none ∧ name ≠ key.name := by
  by_cases same : name = key.name
  · subst same
    simp [properties_addProperty, Fields.get?_insert_self]
  · simp [properties_addProperty, Fields.get?_insert_of_ne same, same]

theorem mem_required_addProperty (d : ObjectDraft) (key : FieldKey) (property : Json)
    (name : String) : name ∈ (d.addProperty key property).required ↔
      name ∈ d.required ∨ key.optional = false ∧ name = key.name := by
  cases h : key.optional <;> simp [addProperty, h, or_comm]

/-- An optional field may also be null. -/
theorem valid_added {key : FieldKey} {v property : Json} (widenable : Widenable property)
    (means : ∀ x, Valid property x ↔ MatchesForm key.form v x) (y : Json) :
    Valid (added key property) y ↔ MatchesField key v (some y) := by
  rw [matchesField_some, added]
  cases key.optional with
  | false => simp [valid_describe, means]
  | true => simp [valid_nullable (widenable.describe _), valid_describe, means]

/-- A property put into a draft stands for its field. -/
theorem admits_addProperty {d : ObjectDraft} {key : FieldKey} {v property : Json}
    (new : Fields.get? d.properties key.name = none) (widenable : Widenable property)
    (means : ∀ x, Valid property x ↔ MatchesForm key.form v x) (ys : Fields) :
    (d.addProperty key property).Admits ys ↔
      d.Admits ys ∧ MatchesField key v (Fields.get? ys key.name) := by
  have here := Fields.get?_insert_self d.properties key.name (added key property)
  have elsewhere {k : String} (other : k ≠ key.name) :=
    Fields.get?_insert_of_ne other d.properties (added key property)
  constructor
  · rintro ⟨declared, required⟩
    refine ⟨⟨fun k s y property found => ?_, fun name mem => ?_⟩, ?_⟩
    · have other : k ≠ key.name := by
        rintro rfl
        cases new.symm.trans property
      exact declared k s y ((elsewhere other).trans property) found
    · exact required name ((mem_required_addProperty d key property name).mpr (.inl mem))
    · cases found : Fields.get? ys key.name with
      | some y => exact (valid_added widenable means y).mp (declared key.name _ y here found)
      | none =>
        cases optional : key.optional with
        | true => exact .absent optional
        | false =>
          have present := required key.name
            ((mem_required_addProperty d key property key.name).mpr (.inr ⟨optional, rfl⟩))
          simp [Fields.contains, found] at present
  · rintro ⟨⟨declared, required⟩, field⟩
    refine ⟨fun k s y property found => ?_, fun name mem => ?_⟩
    · by_cases same : k = key.name
      · subst same
        cases here.symm.trans property
        exact (valid_added widenable means y).mpr (found ▸ field)
      · exact declared k s y ((elsewhere same).symm.trans property) found
    · rcases (mem_required_addProperty d key property name).mp mem with mem | ⟨needed, rfl⟩
      · exact required name mem
      · -- a required field matches nothing but a value
        cases found : Fields.get? ys key.name with
        | some y => simp [Fields.contains, found]
        | none =>
          rw [found, matchesField_none, needed] at field
          cases field

end ObjectDraft

end Promptry.Schema
