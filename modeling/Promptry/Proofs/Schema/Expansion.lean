import Promptry.Proofs.Schema.Draft
import Promptry.Proofs.Schema.Settled

/-!
A shorthand and the JSON Schema that it stands for have the same values. Without names to look up a
conversion answers at once (`Settles`), fields are read one by one into a draft that means what the
fields read so far do (`Extends`), and the whole schema means what the shorthand does
(`expand_settles`). Main statement: `ofShorthand_preserves_meaning`.
-/

namespace Promptry.Schema

/-! ### Conversions that ask for nothing -/

variable {α β : Type} {fine : Bool} {holds : α → Prop}

/-- The conversion asks for nothing. If all is fine it answers something of which `holds` is true,
else it fails. -/
inductive Settles (m : Asking α) (fine : Bool) (holds : α → Prop) : Prop where
  | answers (a : α) : m = pure a → fine = true → holds a → Settles m fine holds
  | fails (e : SchemaError) : m = throw e → fine = false → Settles m fine holds

theorem Settles.bind {m : Asking α} {f : α → Asking β} {fine' : Bool} {holds' : β → Prop}
    (first : Settles m fine holds) (next : ∀ a, holds a → Settles (f a) fine' holds') :
    Settles (m >>= f) (fine && fine') holds' := by
  cases first with
  | answers a same isFine held =>
    rw [same, pure_bind, isFine, Bool.true_and]
    exact next a held
  | fails e same notFine =>
    rw [same, notFine, Bool.false_and]
    exact .fails e rfl rfl

theorem Settles.mono {m : Asking α} {holds' : α → Prop} (first : Settles m fine holds)
    (next : ∀ a, holds a → holds' a) : Settles m fine holds' := by
  cases first with
  | answers a same isFine held => exact .answers a same isFine (next a held)
  | fails e same notFine => exact .fails e same notFine

theorem Settles.map {m : Asking α} {f : α → β} {holds' : β → Prop}
    (first : Settles m fine holds) (next : ∀ a, holds a → holds' (f a)) :
    Settles (do return f (← m)) fine holds' := by
  have := first.bind fun a held => Settles.answers (f a) rfl rfl (next a held)
  simpa using this

/-! ### Properties -/

/-- The schema means what the shorthand does, and can be made nullable. -/
structure Renders (v schema : Json) : Prop where
  widenable : Widenable schema
  valid_iff : ∀ x, Valid schema x ↔ Matches v x

/-- The schema of a property means what the field does, and can be made nullable. -/
structure RendersForm (form : Form) (v property : Json) : Prop where
  widenable : Widenable property
  valid_iff : ∀ x, Valid property x ↔ MatchesForm form v x

variable (resolver : Option (Resolver Json))

/-- The schema of the value under a key, in the form that the key says. -/
def property (k : String) (v : Json) : Asking Json :=
  match (FieldKey.ofText k).form with
  | .array => do return .obj [("type", .str "array"), ("items", ← expand resolver v)]
  | .enumeration =>
      match v with
      | .arr members => return .obj [("enum", .arr members)]
      | v => throw (.enumNotList k v.kindName)
  | .unknown word => throw (.unknownForm word)
  | _ => expand resolver v

theorem expandFields_wildcard (d : ObjectDraft) (v : Json) (rest : Fields) :
    expandFields resolver d ((wildcard, v) :: rest) =
      expand resolver v >>= fun additional =>
        expandFields resolver { d with additional } rest := by
  rw [expandFields, if_pos rfl]

theorem expandFields_field {k : String} (field : k ≠ wildcard) (d : ObjectDraft) (v : Json)
    (rest : Fields) : expandFields resolver d ((k, v) :: rest) =
      property resolver k v >>= fun schema =>
        expandFields resolver (d.addProperty (FieldKey.ofText k) schema) rest := by
  rw [expandFields, if_neg field]
  cases form : (FieldKey.ofText k).form with
  | enumeration => cases v <;> simp [property, form]
  | _ => simp [property, form]

theorem Renders.scalar (s : String) :
    Renders (.str s)
      (describe (splitDescription s.toList).2 (scalarSchema (splitDescription s.toList).1)) := by
  by_cases any : (splitDescription s.toList).1 = "any"
  · have schema : scalarSchema (splitDescription s.toList).1 = .obj [] := if_pos any
    rw [schema]
    refine ⟨(Widenable.untyped rfl rfl).describe _, fun x => ?_⟩
    rw [valid_describe, Valid.flat_iff fun _ _ => rfl]
    exact iff_of_true ⟨typeAllows_of_none rfl x, enumAllows_of_none rfl x⟩
      (matches_str_iff.mpr (.inl any))
  · have schema : scalarSchema (splitDescription s.toList).1 =
        .obj [("type", .str (splitDescription s.toList).1)] := if_neg any
    rw [schema]
    refine ⟨(Widenable.typed rfl rfl).describe _, fun x => ?_⟩
    rw [valid_describe, Valid.flat_iff (by simp [Table.get?]), typeAllows_str_iff rfl,
      matches_str_iff, or_iff_right any]
    exact and_iff_left (enumAllows_of_none rfl x)

theorem RendersForm.array {v items : Json} (renders : Renders v items) :
    RendersForm .array v (.obj [("type", .str "array"), ("items", items)]) := by
  refine ⟨.typed rfl rfl, ?_⟩
  intro x
  constructor
  · intro valid
    obtain ⟨ys, rfl⟩ := hasType_array.mp ((typeAllows_str_iff rfl x).mp valid.typeAllows)
    cases valid with
    | keywords _ _ allItems =>
      exact .array fun y mem => (renders.valid_iff y).mp (allItems items ys rfl rfl y mem)
  · intro matched
    cases matched with
    | @array _ ys allMatch =>
      refine .keywords ((typeAllows_str_iff rfl _).mpr (hasType_array.mpr ⟨ys, rfl⟩))
        (enumAllows_of_none rfl _) ?_ nofun nofun nofun
      intro s zs here sameList y mem
      cases here
      cases sameList
      exact (renders.valid_iff y).mpr (allMatch y mem)

theorem RendersForm.enumeration (members : List Json) :
    RendersForm .enumeration (.arr members) (.obj [("enum", .arr members)]) := by
  refine ⟨.listed rfl rfl, ?_⟩
  intro x
  rw [Valid.flat_iff (by simp [Table.get?]), enumAllows_iff rfl]
  constructor
  · rintro ⟨-, m, mem, same⟩
    exact .enumeration mem same
  · intro matched
    cases matched with
    | enumeration mem same => exact ⟨typeAllows_of_none rfl x, _, mem, same⟩

theorem Renders.plain {v schema : Json} (renders : Renders v schema) :
    RendersForm .plain v schema := by
  refine ⟨renders.widenable, ?_⟩
  intro x
  rw [renders.valid_iff x]
  refine ⟨.plain, ?_⟩
  intro matched
  cases matched with
  | plain matched => exact matched

theorem Renders.object {v schema : Json} (renders : Renders v schema) :
    RendersForm .object v schema := by
  refine ⟨renders.widenable, ?_⟩
  intro x
  rw [renders.valid_iff x]
  refine ⟨.object, ?_⟩
  intro matched
  cases matched with
  | object matched => exact matched

/-- A field that can be read is fine if its value is. -/
theorem fine_of_readable {k : String} {v : Json} (inner : nests k = true)
    (reads : Readable k v) :
    (decide (Readable k v) && (!nests k || wellFormed v)) = wellFormed v := by
  simp [inner, reads]

/-- The schema of a property means what the field does, if the schema of a value under a key does
what its shorthand does. -/
theorem property_settles {k : String} {v : Json} (field : k ≠ wildcard)
    (value : nests k = true → Settles (expand resolver v) (wellFormed v) (Renders v)) :
    Settles (property resolver k v) (decide (Readable k v) && (!nests k || wellFormed v))
      (RendersForm (FieldKey.ofText k).form v) := by
  have noWildcard : (k == wildcard) = false := by simpa using field
  unfold property
  cases form : (FieldKey.ofText k).form with
  | unknown word => exact .fails (.unknownForm word) rfl (by simp [readable_iff, field, form])
  | enumeration =>
    have inner : nests k = false := by simp [nests_eq, noWildcard, form]
    cases v with
    | arr members =>
      exact .answers _ rfl (by simp [readable_iff, form, inner]) (.enumeration members)
    | _ => exact .fails _ rfl (by simp [readable_iff, field, form])
  | array =>
    have inner : nests k = true := by simp [nests_eq, form]
    rw [fine_of_readable inner (by simp [readable_iff, form])]
    exact (value inner).map fun items renders => RendersForm.array renders
  | plain =>
    have inner : nests k = true := by simp [nests_eq, form]
    rw [fine_of_readable inner (by simp [readable_iff, form])]
    exact (value inner).mono fun schema renders => renders.plain
  | object =>
    have inner : nests k = true := by simp [nests_eq, form]
    rw [fine_of_readable inner (by simp [readable_iff, form])]
    exact (value inner).mono fun schema renders => renders.object

/-! ### Fields -/

/-- Reading the fields has made one draft of another: it admits what these and the fields admit,
has the properties of both, and its additional schema is that of the key for all other fields, if
there is one among them. -/
structure Extends (d : ObjectDraft) (fs : Fields) (d' : ObjectDraft) : Prop where
  admits : ∀ ys, d'.Admits ys ↔ d.Admits ys ∧ ∀ f ∈ fs, f.1 ≠ wildcard →
    MatchesField (FieldKey.ofText f.1) f.2 (Fields.get? ys (FieldKey.ofText f.1).name)
  properties : ∀ key, Fields.get? d'.properties key = none ↔
    Fields.get? d.properties key = none ∧ ∀ f ∈ fs, nameOf? f.1 ≠ some key
  wild : ∀ v, Fields.get? fs wildcard = some v → ∀ y, Valid d'.additional y ↔ Matches v y
  noWild : Fields.get? fs wildcard = none → d'.additional = d.additional

theorem Extends.refl (d : ObjectDraft) : Extends d [] d := by
  refine ⟨fun ys => ?_, fun key => ?_, nofun, fun _ => rfl⟩
  · simp
  · simp

theorem Extends.behind_wildcard {d d' : ObjectDraft} {v additional : Json} {rest : Fields}
    (single : none ∉ rest.map fun f => nameOf? f.1) (renders : Renders v additional)
    (later : Extends { d with additional } rest d') : Extends d ((wildcard, v) :: rest) d' := by
  have notLater : Fields.get? rest wildcard = none := by
    rw [Fields.get?_eq_none_iff]
    intro mem
    obtain ⟨f, mem, same⟩ := List.mem_map.mp mem
    exact single (List.mem_map.mpr ⟨f, mem, if_pos same⟩)
  refine ⟨fun ys => ?_, fun key => ?_, ?_, ?_⟩
  · rw [later.admits, d.admits_additional]
    simp
  · rw [later.properties]
    simp [nameOf?]
  · intro w here y
    obtain rfl : v = w := by simpa [Table.get?] using here
    rw [later.noWild notLater]
    exact renders.valid_iff y
  · simp [Table.get?]

theorem Extends.behind_field {d d' : ObjectDraft} {k : String} {v schema : Json} {rest : Fields}
    (field : k ≠ wildcard) (new : Fields.get? d.properties (FieldKey.ofText k).name = none)
    (renders : RendersForm (FieldKey.ofText k).form v schema)
    (later : Extends (d.addProperty (FieldKey.ofText k) schema) rest d') :
    Extends d ((k, v) :: rest) d' := by
  have named : nameOf? k = some (FieldKey.ofText k).name := if_neg field
  have noWild : Fields.get? ((k, v) :: rest) wildcard = Fields.get? rest wildcard := if_neg field
  refine ⟨fun ys => ?_, fun key => ?_, ?_, ?_⟩
  · rw [later.admits, ObjectDraft.admits_addProperty new renders.widenable renders.valid_iff,
      and_assoc, List.forall_mem_cons]
    simp only [ne_eq, field, not_false_eq_true, true_imp_iff]
  · rw [later.properties, ObjectDraft.get?_addProperty, List.forall_mem_cons, named]
    simp only [and_assoc, ne_eq, Option.some.injEq, eq_comm (a := key)]
  · rw [noWild]
    exact later.wild
  · rw [noWild]
    exact later.noWild

/-- Reading fields of distinct names, none of which was read before. -/
theorem expandFields_settles {fs : Fields}
    (values : ∀ f ∈ fs, nests f.1 = true →
      Settles (expand resolver f.2) (wellFormed f.2) (Renders f.2))
    (apart : (fs.map fun f => nameOf? f.1).Nodup) {d : ObjectDraft}
    (new : ∀ f ∈ fs, ∀ name, nameOf? f.1 = some name → Fields.get? d.properties name = none) :
    Settles (expandFields resolver d fs)
      (fs.all fun f => decide (Readable f.1 f.2) && (!nests f.1 || wellFormed f.2))
      (Extends d fs) := by
  induction fs generalizing d with
  | nil => exact .answers d (by rw [expandFields]) rfl (.refl d)
  | cons f rest ih =>
    obtain ⟨k, v⟩ := f
    rw [List.map_cons, List.nodup_cons] at apart
    have valuesRest := fun f mem => values f (List.mem_cons_of_mem (k, v) mem)
    have newRest := fun f mem => new f (List.mem_cons_of_mem (k, v) mem)
    have value := values (k, v) List.mem_cons_self
    rw [List.all_cons]
    by_cases field : k = wildcard
    · subst field
      have inner : nests wildcard = true := by simp [nests]
      rw [expandFields_wildcard, fine_of_readable inner (.others rfl)]
      apply (value inner).bind
      intro additional renders
      exact (ih valuesRest apart.2 (d := { d with additional }) newRest).mono fun d' later =>
        Extends.behind_wildcard apart.1 renders later
    · have named : nameOf? k = some (FieldKey.ofText k).name := if_neg field
      have newHere := new (k, v) List.mem_cons_self _ named
      rw [expandFields_field resolver field]
      apply (property_settles resolver field value).bind
      intro schema renders
      -- the draft has one property more, which no later field bears the name of
      have newLater : ∀ f ∈ rest, ∀ name, nameOf? f.1 = some name →
          Fields.get? (d.addProperty (FieldKey.ofText k) schema).properties name = none := by
        intro f mem name sameName
        refine (ObjectDraft.get?_addProperty d _ schema name).mpr
          ⟨newRest f mem name sameName, ?_⟩
        rintro rfl
        exact apart.1 (List.mem_map.mpr ⟨f, mem, sameName.trans named.symm⟩)
      exact (ih valuesRest apart.2 newLater).mono fun d' later =>
        Extends.behind_field field newHere renders later

/-- The schema of an object means what the object does. -/
theorem Extends.renders {fs : Fields} {d : ObjectDraft} (whole : Extends {} fs d) :
    Renders (.obj fs) d.schema := by
  have free (key : String) : Fields.get? d.properties key = none ↔
      ∀ f ∈ fs, nameOf? f.1 ≠ some key := by
    rw [whole.properties]
    simp
  have nothing (ys : Fields) : ({} : ObjectDraft).Admits ys := ⟨nofun, nofun⟩
  refine ⟨d.widenable_schema, ?_⟩
  intro x
  rw [d.valid_schema, matches_obj_iff]
  constructor
  · rintro ⟨ys, rfl, admits, others⟩
    refine ⟨ys, rfl, ((whole.admits ys).mp admits).2, ?_, ?_⟩
    · intro key y here other
      by_contra noWild
      have none : Fields.get? fs wildcard = none := by
        simpa [Fields.contains] using noWild
      have valid := others key y here ((free key).mpr other)
      rw [whole.noWild none] at valid
      exact not_valid_false valid
    · intro key y v here other wild
      exact (whole.wild v wild y).mp (others key y here ((free key).mpr other))
  · rintro ⟨ys, rfl, fields, others, wild⟩
    refine ⟨ys, rfl, (whole.admits ys).mpr ⟨nothing ys, fields⟩, fun key y here undeclared => ?_⟩
    have other := (free key).mp undeclared
    obtain ⟨v, found⟩ := Option.isSome_iff_exists.mp (others key y here other)
    exact (whole.wild v found y).mpr (wild key y v here other found)

/-! ### Shorthands -/

/-- A test of all shorthands within an object goes through its fields. -/
theorem everywhere_obj (test : Json → Bool) (fs : Fields) : everywhere test (.obj fs) =
    (test (.obj fs) && fs.all fun f => !nests f.1 || everywhere test f.2) := by
  have fields (fs : Fields) : everywhereIn test fs =
      fs.all fun f => !nests f.1 || everywhere test f.2 := by
    induction fs with
    | nil => simp [everywhereIn]
    | cons f rest ih => simp [everywhereIn, ih]
  rw [everywhere, fields]

theorem everywhere_field {test : Json → Bool} {fs : Fields}
    (h : everywhere test (.obj fs) = true) {f : String × Json} (mem : f ∈ fs)
    (inner : nests f.1 = true) : everywhere test f.2 = true := by
  rw [everywhere_obj, Bool.and_eq_true] at h
  simpa [inner] using List.all_eq_true.mp h.2 f mem

theorem wellFormed_obj (fs : Fields) : wellFormed (.obj fs) =
    fs.all fun f => decide (Readable f.1 f.2) && (!nests f.1 || wellFormed f.2) := by
  rw [wellFormed, everywhere_obj, Bool.eq_iff_iff]
  simp only [Bool.and_eq_true, List.all_eq_true]
  exact ⟨fun h f mem => ⟨h.1 f mem, h.2 f mem⟩,
    fun h => ⟨fun f mem => (h f mem).1, fun f mem => (h f mem).2⟩⟩

theorem sizeOf_field_lt {fs : Fields} {f : String × Json} (mem : f ∈ fs) :
    sizeOf f.2 < sizeOf (Json.obj fs) := by
  have := List.sizeOf_lt_of_mem mem
  obtain ⟨k, v⟩ := f
  simp only [Prod.mk.sizeOf_spec, Json.obj.sizeOf_spec] at this ⊢
  omega

/-- Without names to look up, a shorthand with distinct fields is expanded if it is well-formed, to
a schema that means what the shorthand does, and fails if it is not. -/
theorem expand_settles (v : Json) (noNames : nameless v = true) (apart : distinct v = true) :
    Settles (expand resolver v) (wellFormed v) (Renders v) := by
  match v with
  | .str s =>
    have scalar : scalarTypes.contains (splitDescription s.toList).1 = true :=
      List.contains_iff_mem.mpr (namesScalar_iff.mp (of_decide_eq_true noNames))
    have renders := Renders.scalar s
    -- the answer is given by projections and computed by a match
    rcases split : splitDescription s.toList with ⟨type, description⟩
    rw [split] at scalar renders
    refine .answers _ ?_ rfl renders
    simp only [expand, split, scalar, if_true, pure_bind]
  | .obj fs =>
    have names := apart
    rw [distinct, everywhere_obj, Bool.and_eq_true, decide_eq_true_eq,
      pairwise_namedApart_iff] at names
    have fields := expandFields_settles resolver
      (fun f mem inner => expand_settles f.2 (everywhere_field noNames mem inner)
        (everywhere_field apart mem inner)) names.1 (d := {}) fun _ _ _ _ => rfl
    rw [wellFormed_obj, expand]
    exact fields.map fun d whole => whole.renders
  | .null | .bool _ | .num _ | .arr _ => exact .fails _ rfl rfl
termination_by sizeOf v
decreasing_by exact sizeOf_field_lt mem

/-- A shorthand of texts and objects, without names to look up and with distinct fields, means what
its JSON Schema does: whenever it is expanded, the same values are valid under the schema as match
the shorthand; and it is expanded, asking for nothing, if it is well-formed. -/
theorem ofShorthand_preserves_meaning {v : Json} (shorthand : isJsonSchema v = false)
    (noNames : nameless v = true) (apart : distinct v = true) :
    (∀ schema, (ofShorthand resolver v).result.1 = .ok (some schema) →
      ∀ x, Valid schema x ↔ Matches v x) ∧
    (wellFormed v = true →
      ∃ schema, (ofShorthand resolver v).result = (.ok (some schema), [])) := by
  by_cases null : v = .null
  · subst null
    exact ⟨nofun, nofun⟩
  rw [ofShorthand_eq_expand shorthand null]
  cases expand_settles resolver v noNames apart with
  | answers schema same _ renders =>
    rw [same, pure_bind]
    constructor
    · intro schema' answer x
      cases answer
      exact renders.valid_iff x
    · intro _
      exact ⟨schema, rfl⟩
  | fails e same notFine =>
    rw [same]
    constructor
    · intro schema answer
      cases answer
    · intro isFine
      cases notFine.symm.trans isFine

/-- A shorthand with fields of several forms, and with an object for all other fields. -/
def profile : Json :=
  .obj [("name", .str "string, Full name"), ("tags?(array)", .str "integer"),
    ("state?(enum, Current)", .arr [.str "on", .str "off"]), ("(*)", .obj [("type?", .str "any")])]

/-- What it stands for. -/
def profileSchema : Json :=
  .obj [("type", .str "object"),
    ("properties", .obj [
      ("name", .obj [("type", .str "string"), ("description", .str "Full name")]),
      ("tags", .obj [("type", .arr [.str "array", .str "null"]),
        ("items", .obj [("type", .str "integer")])]),
      ("state", .obj [("enum", .arr [.str "on", .str "off", .null]),
        ("description", .str "Current")])]),
    ("required", .arr [.str "name"]),
    ("additionalProperties", .obj [("type", .str "object"),
      ("properties", .obj [("type", .obj [])]), ("additionalProperties", .bool false)])]

/-- A field with a question mark may be null, and may be absent. -/
theorem matches_profile : Matches profile (.obj [("name", .str "Ada"), ("tags", .null)]) := by
  refine matches_obj_iff.mpr ⟨_, rfl, ?_, fun _ _ _ _ => rfl, ?_⟩
  · simp only [List.forall_mem_cons]
    refine ⟨fun _ => ?_, fun _ => ?_, fun _ => ?_, fun other => absurd rfl other, nofun⟩
    · exact .present (.plain (matches_str_iff.mpr (.inr (.inl rfl))))
    · exact .null rfl
    · exact .absent rfl
  · intro name y v here other
    have ne : "name" ≠ name := fun same => other _ List.mem_cons_self (congrArg some same)
    have ne' : "tags" ≠ name := fun same =>
      other _ (List.mem_cons_of_mem _ List.mem_cons_self) (congrArg some same)
    simp [Table.get?, ne, ne'] at here

/-- A field without a question mark is needed. -/
theorem not_matches_profile_nameless : ¬ Matches profile (.obj [("tags", .null)]) := by
  intro matched
  obtain ⟨_, ⟨⟩, fields, -⟩ := matches_obj_iff.mp matched
  have name := fields _ List.mem_cons_self (by decide)
  cases matchesField_none.mp name

/-- The question mark is no part of the name. -/
theorem not_matches_profile_marked :
    ¬ Matches profile (.obj [("name", .str "Ada"), ("tags?", .null)]) := by
  intro matched
  obtain ⟨_, ⟨⟩, -, -, wild⟩ := matches_obj_iff.mp matched
  have other := wild "tags?" .null _ rfl (by decide +kernel) rfl
  cases other

/-- The profile is converted as it is written out, with the values valid that match it. -/
theorem ofShorthand_preserves_meaning_profile :
    (isJsonSchema profile = false ∧ nameless profile = true ∧ distinct profile = true ∧
      wellFormed profile = true) ∧
    (ofShorthand none profile).result = (.ok (some profileSchema), []) ∧
    (∀ x, Valid profileSchema x ↔ Matches profile x) ∧
    Valid profileSchema (.obj [("name", .str "Ada"), ("tags", .null)]) ∧
    ¬ Valid profileSchema (.obj [("tags", .null)]) ∧
    ¬ Valid profileSchema (.obj [("name", .str "Ada"), ("tags?", .null)]) := by
  have shorthand : isJsonSchema profile = false := by decide
  have noNames : nameless profile = true := by decide +kernel
  have apart : distinct profile = true := by decide +kernel
  have fine : wellFormed profile = true := by decide +kernel
  have result : (ofShorthand none profile).result = (.ok (some profileSchema), []) := rfl
  obtain ⟨preserves, -⟩ := ofShorthand_preserves_meaning none shorthand noNames apart
  have valid_iff := preserves profileSchema (by rw [result])
  refine ⟨⟨shorthand, noNames, apart, fine⟩, result, valid_iff, ?_, ?_, ?_⟩
  · exact (valid_iff _).mpr matches_profile
  · exact fun valid => not_matches_profile_nameless ((valid_iff _).mp valid)
  · exact fun valid => not_matches_profile_marked ((valid_iff _).mp valid)

end Promptry.Schema
