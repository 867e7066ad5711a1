import Mathlib.Data.List.Pairwise
import Promptry.Proofs.Schema.Nested
import Promptry.Proofs.Schema.Nodes

/-!
The required fields of object schemas. An object schema that a conversion builds from an object
lists the names of its fields without a question mark, in order, and each of them is the name of a
property (`Lists`). Properties are set by name, but the list only grows, so that it is consistent if
and only if fields of one name all have a question mark (`Apart`). Main statements: `consistent_iff`
and `required_twice`.
-/

namespace Promptry.Schema

variable {resolver : Option (Resolver Json)} {fs gs : Fields} {v s : Json}

/-! ### What is listed -/

/-- What an object schema lists as required: the names of the fields without a question mark, if
there are any. Its properties have the names of all fields. -/
structure Lists (fs gs : Fields) : Prop where
  required : Fields.get? gs "required" =
    if requiredNames fs = [] then none else some (.arr ((requiredNames fs).map Json.str))
  properties : ∃ ps, Fields.get? gs "properties" = some (.obj ps) ∧
    ∀ name, Fields.contains ps name = true ↔ ∃ f ∈ fs, nameOf? f.1 = some name

theorem contains_put (d : ObjectDraft) (k : String) (s : Json) (name : String) :
    Fields.contains (d.put k s).properties name = true ↔
      Fields.contains d.properties name = true ∨ nameOf? k = some name := by
  by_cases here : nameOf? k = some name
  · have field : k ≠ wildcard := by
      rintro rfl
      cases here
    obtain rfl : (FieldKey.ofText k).name = name := by
      rwa [nameOf?, if_neg field, Option.some.injEq] at here
    simp [Fields.contains, get?_put_self field, here]
  · simp [Fields.contains, get?_put_of_ne here, here]

theorem contains_of_expandFields {d d' : ObjectDraft}
    (answer : (expandFields resolver d fs).result.1 = .ok d') (name : String) :
    Fields.contains d'.properties name = true ↔
      Fields.contains d.properties name = true ∨ ∃ f ∈ fs, nameOf? f.1 = some name := by
  induction fs generalizing d with
  | nil =>
    rw [expandFields] at answer
    cases answer
    simp
  | cons f rest ih =>
    rw [result_expandFields] at answer
    obtain ⟨s, -, later⟩ := exists_of_bind_eq_ok answer
    rw [ih later, contains_put, List.exists_mem_cons_iff, or_assoc]

/-- An object is expanded to an object schema that lists its required fields. -/
theorem lists_of_expand (read : (expand resolver (.obj fs)).result.1 = .ok s) :
    ∃ gs, s = .obj gs ∧ Lists fs gs := by
  rw [result_expand_obj] at read
  obtain ⟨d, answer, rfl⟩ := exists_of_map_eq_ok read
  obtain ⟨gs, same, -, -, -, properties, required, -⟩ := d.schema_eq
  have names : d.required.reverse = requiredNames fs := required_of_expandFields answer
  refine ⟨gs, same, ?_, d.properties, properties, fun name => ?_⟩
  · rw [required, names]
    simp only [← names, List.reverse_eq_nil_iff]
  · rw [contains_of_expandFields answer]
    simp [Table.contains]

/-! ### Where object schemas stand -/

/-- The object schema `gs` stands in the schema of a shorthand at the place of the object `fs`. -/
inductive Stands : Json → Json → Fields → Fields → Prop where
  | here {fs gs : Fields} : Stands (.obj fs) (.obj gs) fs gs
  /-- In the schema of all other fields. -/
  | others {fs gs fs' gs' before after : Fields} {v s : Json}
      (place : fs = before ++ (wildcard, v) :: after) (last : ∀ f ∈ after, f.1 ≠ wildcard)
      (schema : Fields.get? gs "additionalProperties" = some s) (inner : Stands v s fs' gs') :
      Stands (.obj fs) (.obj gs) fs' gs'
  /-- In the property of a field whose value is an object. -/
  | property {fs gs fs' gs' before after : Fields} {k : String} {v s : Json}
      (place : fs = before ++ (k, v) :: after) (last : ∀ f ∈ after, nameOf? f.1 ≠ nameOf? k)
      (form : (FieldKey.ofText k).form ∈ [Form.plain, .object])
      (schema : propertyOf? (.obj gs) (FieldKey.ofText k).name = some s)
      (inner : Stands v s fs' gs') : Stands (.obj fs) (.obj gs) fs' gs'
  /-- In the items of a field that is a list of objects. -/
  | items {fs gs fs' gs' before after ps : Fields} {k : String} {v s : Json}
      (place : fs = before ++ (k, v) :: after) (last : ∀ f ∈ after, nameOf? f.1 ≠ nameOf? k)
      (form : (FieldKey.ofText k).form = .array)
      (schema : propertyOf? (.obj gs) (FieldKey.ofText k).name = some (.obj ps))
      (items : Fields.get? ps "items" = some s) (inner : Stands v s fs' gs') :
      Stands (.obj fs) (.obj gs) fs' gs'

/-- Both schemas are objects that say the same but for types, enumerated values and descriptions, if
the first one is an object. -/
def Rewords (s s' : Json) : Prop :=
  ∀ fs, s = .obj fs → ∃ gs, s' = .obj gs ∧
    ∀ keyword ∉ ["type", "enum", "description"], Fields.get? gs keyword = Fields.get? fs keyword

theorem Rewords.refl (s : Json) : Rewords s s := fun fs same => ⟨fs, same, fun _ _ => rfl⟩

theorem rewords_added (key : FieldKey) (s : Json) : Rewords s (ObjectDraft.added key s) := by
  rintro fs rfl
  obtain ⟨gs, same, -⟩ := @get?_added key fs "required" (by decide)
  refine ⟨gs, same, fun keyword other => ?_⟩
  obtain ⟨gs', same', kept⟩ := get?_added key fs other
  obtain rfl := Json.obj.inj (same.symm.trans same')
  exact kept

theorem Lists.reword {gs' : Fields} (lists : Lists fs gs)
    (same : ∀ keyword ∉ ["type", "enum", "description"],
      Fields.get? gs' keyword = Fields.get? gs keyword) : Lists fs gs' where
  required := (same "required" (by decide)).trans lists.required
  properties := by
    obtain ⟨ps, properties, names⟩ := lists.properties
    exact ⟨ps, (same "properties" (by decide)).trans properties, names⟩

/-- Fields with names leave the schema of all other fields as it is. -/
theorem additional_of_named {d d' : ObjectDraft}
    (answer : (expandFields resolver d fs).result.1 = .ok d') (named : ∀ f ∈ fs, f.1 ≠ wildcard) :
    d'.additional = d.additional := by
  induction fs generalizing d with
  | nil =>
    rw [expandFields] at answer
    cases answer
    rfl
  | cons f rest ih =>
    rw [result_expandFields] at answer
    obtain ⟨s, -, later⟩ := exists_of_bind_eq_ok answer
    rw [List.forall_mem_cons] at named
    rw [ih later named.2, ObjectDraft.put, if_neg named.1]
    rfl

/-- The last key for all other fields gives the schema of these. -/
theorem additional_of_expandFields {d d' : ObjectDraft} {before after : Fields}
    (answer : (expandFields resolver d (before ++ (wildcard, v) :: after)).result.1 = .ok d')
    (last : ∀ f ∈ after, f.1 ≠ wildcard) :
    (expand resolver v).result.1 = .ok d'.additional := by
  induction before generalizing d with
  | nil =>
    rw [List.nil_append, result_expandFields, reading, if_pos rfl] at answer
    obtain ⟨s, read, later⟩ := exists_of_bind_eq_ok answer
    rw [additional_of_named later last, ObjectDraft.put, if_pos rfl]
    exact read
  | cons f before ih =>
    rw [List.cons_append, result_expandFields] at answer
    obtain ⟨s, -, later⟩ := exists_of_bind_eq_ok answer
    exact ih later

/-- The property of a field that is no enumeration is made of the schema of its value. -/
theorem property_of_expand {before after : Fields} {k : String}
    (read : (expand resolver (.obj (before ++ (k, v) :: after))).result.1 = .ok s)
    (last : ∀ f ∈ after, nameOf? f.1 ≠ nameOf? k)
    (simple : (FieldKey.ofText k).form ∈ [Form.plain, .array, .object]) :
    ∃ inner, (expand resolver v).result.1 = .ok inner ∧
      propertyOf? s (FieldKey.ofText k).name =
        some (ObjectDraft.added (FieldKey.ofText k) ((FieldKey.ofText k).form.around inner)) := by
  have field : k ≠ wildcard := by
    rintro rfl
    exact absurd simple (by decide)
  rw [result_expand_obj] at read
  obtain ⟨d, answer, rfl⟩ := exists_of_map_eq_ok read
  obtain ⟨p, made, here⟩ := get?_of_expandFields answer field last
  rw [result_property simple] at made
  obtain ⟨inner, expanded, rfl⟩ := exists_of_map_eq_ok made
  exact ⟨inner, expanded, (propertyOf?_schema d _).trans here⟩

theorem propertyOf?_reword {gs gs' : Fields}
    (same : ∀ keyword ∉ ["type", "enum", "description"],
      Fields.get? gs' keyword = Fields.get? gs keyword) (name : String) :
    propertyOf? (.obj gs') name = propertyOf? (.obj gs) name := by
  simp only [propertyOf?, same "properties" (by decide)]

/-- Wherever an object schema stands that a conversion built, it lists its required fields. -/
theorem Stands.lists {fs' gs' : Fields} {s' : Json} (stands : Stands v s' fs' gs')
    (read : (expand resolver v).result.1 = .ok s) (same : Rewords s s') : Lists fs' gs' := by
  induction stands generalizing s with
  | here =>
    obtain ⟨gs, rfl, lists⟩ := lists_of_expand read
    obtain ⟨gs', ⟨⟩, kept⟩ := same gs rfl
    exact lists.reword kept
  | others place last schema inner ih =>
    subst place
    rw [result_expand_obj] at read
    obtain ⟨d, answer, rfl⟩ := exists_of_map_eq_ok read
    obtain ⟨gs, isObj, -, -, -, -, -, additional⟩ := d.schema_eq
    obtain ⟨gs', ⟨⟩, kept⟩ := same gs isObj
    rw [kept "additionalProperties" (by decide), additional] at schema
    cases schema
    exact ih (additional_of_expandFields answer last) (.refl _)
  | @property _ _ _ _ _ _ k _ _ place last form schema inner ih =>
    subst place
    have simple : (FieldKey.ofText k).form ∈ [Form.plain, .array, .object] := by
      simp only [List.mem_cons, List.not_mem_nil, or_false] at form ⊢
      rcases form with form | form <;> simp [form]
    have bare (s : Json) : (FieldKey.ofText k).form.around s = s := by
      simp only [List.mem_cons, List.not_mem_nil, or_false] at form
      rcases form with form | form <;> rw [form] <;> rfl
    obtain ⟨s₀, expanded, here⟩ := property_of_expand read last simple
    obtain ⟨gs, rfl, -⟩ := lists_of_expand read
    obtain ⟨gs', ⟨⟩, kept⟩ := same gs rfl
    rw [propertyOf?_reword kept, here, bare] at schema
    cases schema
    exact ih expanded (rewords_added _ s₀)
  | @items _ _ _ _ _ _ _ k _ _ place last form schema items inner ih =>
    subst place
    obtain ⟨s₀, expanded, here⟩ := property_of_expand read last (by simp [form])
    obtain ⟨gs, rfl, -⟩ := lists_of_expand read
    obtain ⟨gs', ⟨⟩, kept⟩ := same gs rfl
    rw [propertyOf?_reword kept, here, form, Form.around, Option.some.injEq] at schema
    obtain ⟨ps, isObj, kept⟩ := rewords_added (FieldKey.ofText k) _ _ rfl
    cases schema.symm.trans isObj
    rw [kept "items" (by decide)] at items
    cases items
    exact ih expanded (.refl _)

/-! ### Consistency -/

/-- The list of required fields of an object schema that stands for the object `fs` is consistent:
it is absent rather than empty, and the names in it are distinct, names of properties, and none of
them is that of a field with a question mark. -/
structure Consistent (fs gs : Fields) : Prop where
  nonempty : Fields.get? gs "required" ≠ some (.arr [])
  texts : ∀ list, Fields.get? gs "required" = some list →
    ∃ names : List String, list = .arr (names.map Json.str)
  nodup : ∀ names : List String, Fields.get? gs "required" = some (.arr (names.map Json.str)) →
    names.Nodup
  declared : ∀ names : List String, Fields.get? gs "required" = some (.arr (names.map Json.str)) →
    ∀ name ∈ names, (propertyOf? (.obj gs) name).isSome = true
  unmarked : ∀ names : List String, Fields.get? gs "required" = some (.arr (names.map Json.str)) →
    ∀ f ∈ fs, (FieldKey.ofText f.1).optional = true → ∀ name, nameOf? f.1 = some name →
      name ∉ names

/-- No required field has the name of another field. -/
def Apart (fs : Fields) : Prop :=
  fs.Pairwise fun f g => isRequired f.1 = true ∨ isRequired g.1 = true → nameOf? f.1 ≠ nameOf? g.1

instance : Decidable (Apart fs) := inferInstanceAs (Decidable (fs.Pairwise _))

theorem nodup_requiredNames_iff : (requiredNames fs).Nodup ↔ fs.Pairwise fun f g =>
    isRequired f.1 = true → isRequired g.1 = true → nameOf? f.1 ≠ nameOf? g.1 := by
  rw [requiredNames, List.Nodup, List.pairwise_map, List.pairwise_filter]
  refine ⟨List.Pairwise.imp ?_, List.Pairwise.imp ?_⟩ <;> intro f g differ first second <;>
    simpa [nameOf?_of_required first, nameOf?_of_required second] using differ first second

/-- Fields of which one only is required have different names. -/
theorem Apart.differ (apart : Apart fs) {f g : String × Json} (here : f ∈ fs) (there : g ∈ fs)
    (one : isRequired f.1 ≠ isRequired g.1) : nameOf? f.1 ≠ nameOf? g.1 := by
  have symmetric : Std.Symm fun f g : String × Json =>
      isRequired f.1 ≠ isRequired g.1 → nameOf? f.1 ≠ nameOf? g.1 :=
    ⟨fun f g differ one => (differ one.symm).symm⟩
  have weaker := apart.imp (S := fun f g =>
    isRequired f.1 ≠ isRequired g.1 → nameOf? f.1 ≠ nameOf? g.1) fun {f g} differ one => by
      apply differ
      cases first : isRequired f.1 <;> simp_all
  exact weaker.forall_of_forall (fun f _ one => absurd rfl one) here there one

/-- Required fields are apart from all others if their names are distinct and no field with a
question mark has one of them. -/
theorem apart_iff : Apart fs ↔ (requiredNames fs).Nodup ∧ ∀ f ∈ fs, isRequired f.1 = false →
    ∀ name, nameOf? f.1 = some name → name ∉ requiredNames fs := by
  rw [nodup_requiredNames_iff]
  constructor
  · intro apart
    refine ⟨apart.imp fun differ first _ => differ (.inl first), ?_⟩
    intro f mem unmarked name named listed
    obtain ⟨g, other, required, same⟩ := mem_requiredNames.mp listed
    exact apart.differ mem other (by simp [unmarked, required]) (named.trans same.symm)
  · rintro ⟨distinct, unmarked⟩
    refine distinct.imp_of_mem fun {f g} here there differ required same => ?_
    cases first : isRequired f.1 with
    | true =>
      have named := same.symm.trans (nameOf?_of_required first)
      cases second : isRequired g.1 with
      | true => exact differ first second same
      | false =>
        have listed := mem_requiredNames.mpr ⟨f, here, first, same.trans named⟩
        exact unmarked g there second _ named listed
    | false =>
      have second : isRequired g.1 = true := by simpa [first] using required
      have named := nameOf?_of_required second
      have listed := mem_requiredNames.mpr ⟨g, there, second, named⟩
      exact unmarked f here first _ (same.trans named) listed

theorem Lists.listed {names : List String} (lists : Lists fs gs)
    (listed : Fields.get? gs "required" = some (.arr (names.map Json.str))) :
    names = requiredNames fs := by
  rw [lists.required] at listed
  split at listed
  · cases listed
  · rw [Option.some.injEq, Json.arr.injEq] at listed
    exact ((List.map_injective_iff.mpr fun _ _ => Json.str.inj) listed).symm

/-- The question mark decides whether a field with a name is required. -/
theorem isRequired_eq_false_iff {k name : String} (named : nameOf? k = some name) :
    isRequired k = false ↔ (FieldKey.ofText k).optional = true := by
  have field : k ≠ wildcard := by
    rintro rfl
    cases named
  simp [isRequired, field]

/-- A list of required fields is consistent if and only if these are apart from all other fields. -/
theorem Lists.consistent_iff_apart (lists : Lists fs gs) : Consistent fs gs ↔ Apart fs := by
  rw [apart_iff]
  constructor
  · intro consistent
    by_cases empty : requiredNames fs = []
    · rw [empty]
      exact ⟨List.nodup_nil, fun _ _ _ _ _ => List.not_mem_nil⟩
    have listed := lists.required
    rw [if_neg empty] at listed
    exact ⟨consistent.nodup _ listed, fun f mem unmarked name named =>
      consistent.unmarked _ listed f mem ((isRequired_eq_false_iff named).mp unmarked) name named⟩
  · rintro ⟨distinct, unmarked⟩
    constructor
    case nonempty =>
      intro empty
      have none : [] = requiredNames fs := lists.listed empty
      rw [lists.required, if_pos none.symm] at empty
      cases empty
    case texts =>
      intro list listed
      rw [lists.required] at listed
      split at listed
      · cases listed
      · exact ⟨_, (Option.some.inj listed).symm⟩
    case nodup =>
      intro names listed
      exact lists.listed listed ▸ distinct
    case declared =>
      intro names listed name mem
      rw [lists.listed listed, mem_requiredNames] at mem
      obtain ⟨f, here, -, named⟩ := mem
      obtain ⟨ps, properties, names⟩ := lists.properties
      rw [propertyOf?, properties]
      exact (names name).mpr ⟨f, here, named⟩
    case unmarked =>
      intro names listed f mem optional name named
      rw [lists.listed listed]
      exact unmarked f mem ((isRequired_eq_false_iff named).mpr optional) name named

/-- All object schemas that a conversion builds from objects list the fields without a question
mark, in order, as required, wherever they stand in the schema. The list is consistent if and only
if none of these fields has the name of another field of the object. -/
theorem consistent_iff (shorthand : isJsonSchema v = false)
    (converts : (ofShorthand resolver v).result.1 = .ok (some s)) :
    (∀ fs, .value (.obj fs) ∈ nodes v → ∃ gs,
      (expand resolver (.obj fs)).result.1 = .ok (.obj gs) ∧ Lists fs gs ∧
        (Consistent fs gs ↔ Apart fs)) ∧
      ∀ fs gs, Stands v s fs gs → Lists fs gs ∧ (Consistent fs gs ↔ Apart fs) := by
  have read := expand_of_alone shorthand converts
  refine ⟨fun fs mem => ?_, fun fs gs stands => ?_⟩
  · have expanded := expand_within read mem
    obtain ⟨gs, same, lists⟩ := lists_of_expand expanded
    exact ⟨gs, expanded.trans (congrArg Except.ok same), lists, lists.consistent_iff_apart⟩
  · have lists := stands.lists read (.refl _)
    exact ⟨lists, lists.consistent_iff_apart⟩

/-- A list of objects in an object without required fields. -/
theorem consistent_iff_stops :
    let stop : Fields := [("street", .str "string"), ("note?", .str "string")]
    let v : Json := .obj [("stops?(array)", .obj stop), ("(*)", .str "any")]
    let inner : Fields := [("type", .str "object"),
      ("properties", .obj [("street", .obj [("type", .str "string")]),
        ("note", .obj [("type", .arr [.str "string", .str "null"])])]),
      ("required", .arr [.str "street"]), ("additionalProperties", .bool false)]
    let stops : Fields := [("type", .arr [.str "array", .str "null"]), ("items", .obj inner)]
    let schema : Fields := [("type", .str "object"), ("properties", .obj [("stops", .obj stops)]),
      ("additionalProperties", .obj [])]
    (ofShorthand none v).result.1 = .ok (some (.obj schema)) ∧ Stands v (.obj schema) stop inner ∧
      Consistent stop inner := by
  intro stop v inner stops schema
  have converts : (ofShorthand none v).result.1 = .ok (some (.obj schema)) := rfl
  have key : FieldKey.ofText "stops?(array)" = ⟨"stops", true, .array, none⟩ := by decide
  have stands : Stands v (.obj schema) stop inner :=
    .items (show _ = [] ++ ("stops?(array)", .obj stop) :: [("(*)", .str "any")] from rfl)
      (by decide) (by rw [key]) (by rw [key]; rfl)
      (show Fields.get? stops "items" = some (.obj inner) from rfl) .here
  exact ⟨converts, stands, ((consistent_iff rfl converts).2 _ _ stands).2.mpr (by decide)⟩

/-- Two keys for one name are one property. Its name is listed twice, or although the key that made
the property has a question mark. -/
theorem required_twice :
    let twice : Fields := [("a", .str "string"), ("a(array)", .str "string")]
    let marked : Fields := [("a", .str "string"), ("a?(array)", .str "string")]
    let items : Json := .obj [("type", .str "string")]
    let gs : Fields := [("type", .str "object"),
      ("properties", .obj [("a", .obj [("type", .str "array"), ("items", items)])]),
      ("required", .arr [.str "a", .str "a"]), ("additionalProperties", .bool false)]
    let hs : Fields := [("type", .str "object"),
      ("properties", .obj [("a", .obj [("type", .arr [.str "array", .str "null"]),
        ("items", items)])]),
      ("required", .arr [.str "a"]), ("additionalProperties", .bool false)]
    (ofShorthand none (.obj twice)).result.1 = .ok (some (.obj gs)) ∧
      (ofShorthand none (.obj marked)).result.1 = .ok (some (.obj hs)) ∧
      ¬ Consistent twice gs ∧ ¬ Consistent marked hs := by
  intro twice marked items gs hs
  refine ⟨rfl, rfl, fun consistent => ?_, fun consistent => ?_⟩
  · exact absurd (consistent.nodup ["a", "a"] rfl) (by decide)
  · have last : ("a?(array)", .str "string") ∈ marked := List.mem_cons_of_mem _ List.mem_cons_self
    exact consistent.unmarked ["a"] rfl _ last (by decide) "a" (by decide) List.mem_cons_self

end Promptry.Schema
