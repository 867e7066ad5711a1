import Mathlib.Data.List.Forall2
import Promptry.Json.Basic

/-!
What a JSON Schema says of a value, as far as the keywords `type`, `enum`, `items`, `properties`,
`required` and `additionalProperties` go. Other keywords say nothing. Main statements:
`Valid.reworded_iff` and `Valid.null_iff`, what may change with the type and the enumerated values.
-/

namespace Promptry.Schema

/-- Equality of values: numbers by their values, objects without regard to the order of fields. -/
inductive Equal : Json → Json → Prop where
  | null : Equal .null .null
  | bool (b : Bool) : Equal (.bool b) (.bool b)
  | num {a b : Json.Number} : a.compare? b = some .eq → Equal (.num a) (.num b)
  | str (s : String) : Equal (.str s) (.str s)
  | arr {xs ys : List Json} : List.Forall₂ Equal xs ys → Equal (.arr xs) (.arr ys)
  | obj {fs gs : Fields} : (∀ key, Option.Rel Equal (Fields.get? fs key) (Fields.get? gs key)) →
      Equal (.obj fs) (.obj gs)

theorem equal_null_iff {x : Json} : Equal .null x ↔ x = .null := by
  constructor
  · intro h
    cases h
    rfl
  · rintro rfl
    exact .null

/-- Integers, also those written with a fraction or an exponent. -/
def IsInteger : Json → Prop
  | .num (.int _) => True
  | .num (.float d) => ∃ i, Double.compareInt? i d = some .eq
  | _ => False

/-- The types of values go by their kinds, where integers are numbers too. -/
def HasType (type : String) (x : Json) : Prop := x.kindName = type ∨ type = "integer" ∧ IsInteger x

theorem hasType_iff {type : String} (notInteger : type ≠ "integer") (x : Json) :
    HasType type x ↔ x.kindName = type := by
  simp [HasType, notInteger]

theorem hasType_null {x : Json} : HasType "null" x ↔ x = .null := by
  rw [hasType_iff (by decide)]
  cases x <;> simp [Json.kindName]

theorem hasType_array {x : Json} : HasType "array" x ↔ ∃ ys, x = .arr ys := by
  rw [hasType_iff (by decide)]
  cases x <;> simp [Json.kindName]

theorem hasType_object {x : Json} : HasType "object" x ↔ ∃ ys, x = .obj ys := by
  rw [hasType_iff (by decide)]
  cases x <;> simp [Json.kindName]

/-- The value has the type, or one of the types. -/
def AllowsType : Json → Json → Prop
  | .str type, x => HasType type x
  | .arr types, x => ∃ type, .str type ∈ types ∧ HasType type x
  | _, _ => False

/-- What `type` says: the value is of the type. -/
def TypeAllows (fs : Fields) (x : Json) : Prop :=
  ∀ types, Fields.get? fs "type" = some types → AllowsType types x

/-- What `enum` says: the value is one of the members. -/
def EnumAllows (fs : Fields) (x : Json) : Prop :=
  ∀ members, Fields.get? fs "enum" = some (.arr members) → ∃ m ∈ members, Equal m x

theorem typeAllows_of_none {fs : Fields} (noType : Fields.get? fs "type" = none) (x : Json) :
    TypeAllows fs x := by
  intro types here
  rw [noType] at here
  cases here

theorem typeAllows_iff {fs : Fields} {types : Json} (here : Fields.get? fs "type" = some types)
    (x : Json) : TypeAllows fs x ↔ AllowsType types x := by
  simp [TypeAllows, here]

theorem typeAllows_str_iff {fs : Fields} {type : String}
    (here : Fields.get? fs "type" = some (.str type)) (x : Json) :
    TypeAllows fs x ↔ HasType type x :=
  typeAllows_iff here x

theorem enumAllows_of_none {fs : Fields} (noEnum : Fields.get? fs "enum" = none) (x : Json) :
    EnumAllows fs x := by
  intro members here
  rw [noEnum] at here
  cases here

theorem enumAllows_iff {fs : Fields} {members : List Json}
    (here : Fields.get? fs "enum" = some (.arr members)) (x : Json) :
    EnumAllows fs x ↔ ∃ m ∈ members, Equal m x := by
  simp [EnumAllows, here]

/-- Whether a schema has a property of the name. -/
def Declares (fs : Fields) (key : String) : Prop :=
  ∃ ps s, Fields.get? fs "properties" = some (.obj ps) ∧ Fields.get? ps key = some s

/-- The values that are valid under a schema. All but `type` and `enum` speak of lists or of objects
only. -/
inductive Valid : Json → Json → Prop where
  | all {x : Json} : Valid (.bool true) x
  | keywords {fs : Fields} {x : Json} (type : TypeAllows fs x) (enum : EnumAllows fs x)
      (items : ∀ s ys, Fields.get? fs "items" = some s → x = .arr ys → ∀ y ∈ ys, Valid s y)
      (properties : ∀ ps ys key s y, Fields.get? fs "properties" = some (.obj ps) → x = .obj ys →
        Fields.get? ps key = some s → Fields.get? ys key = some y → Valid s y)
      (required : ∀ names ys name, Fields.get? fs "required" = some (.arr names) → x = .obj ys →
        .str name ∈ names → Fields.contains ys name = true)
      (additional : ∀ s ys key y, Fields.get? fs "additionalProperties" = some s → x = .obj ys →
        Fields.get? ys key = some y → ¬ Declares fs key → Valid s y) :
      Valid (.obj fs) x

theorem not_valid_false {x : Json} : ¬ Valid (.bool false) x := nofun

namespace Valid

variable {fs gs : Fields} {x : Json}

theorem typeAllows (valid : Valid (.obj fs) x) : TypeAllows fs x := by
  cases valid with
  | keywords type => exact type

theorem enumAllows (valid : Valid (.obj fs) x) : EnumAllows fs x := by
  cases valid with
  | keywords _ enum => exact enum

/-- A schema without other keywords says what `type` and `enum` do. -/
theorem flat_iff (flat : ∀ key ∈ ["items", "properties", "required", "additionalProperties"],
    Fields.get? fs key = none) : Valid (.obj fs) x ↔ TypeAllows fs x ∧ EnumAllows fs x := by
  constructor
  · intro valid
    exact ⟨valid.typeAllows, valid.enumAllows⟩
  · rintro ⟨type, enum⟩
    refine .keywords type enum ?_ ?_ ?_ ?_
    · simp [flat "items"]
    · simp [flat "properties"]
    · simp [flat "required"]
    · simp [flat "additionalProperties"]

/-- A schema may be changed in `type` and `enum` as long as these still allow the value. -/
theorem reword (valid : Valid (.obj fs) x)
    (same : ∀ key ∉ ["type", "enum", "description"], Fields.get? gs key = Fields.get? fs key)
    (type : TypeAllows gs x) (enum : EnumAllows gs x) : Valid (.obj gs) x := by
  cases valid with
  | keywords _ _ items properties required additional =>
    have sameProperties := same "properties" (by decide)
    refine .keywords type enum ?_ ?_ ?_ ?_
    · rwa [same "items" (by decide)]
    · rwa [sameProperties]
    · rwa [same "required" (by decide)]
    · rw [same "additionalProperties" (by decide)]
      simpa only [Declares, sameProperties] using additional

/-- A description says nothing. -/
theorem congr (same : ∀ key, key ≠ "description" → Fields.get? gs key = Fields.get? fs key)
    (valid : Valid (.obj fs) x) : Valid (.obj gs) x := by
  refine valid.reword (fun key other => same key ?_) ?_ ?_
  · rintro rfl
    exact other (by decide)
  · rw [TypeAllows, same "type" (by decide)]
    exact valid.typeAllows
  · rw [EnumAllows, same "enum" (by decide)]
    exact valid.enumAllows

/-- Only `type` and `enum` tell schemas apart that agree in all else. -/
theorem reworded_iff
    (same : ∀ key ∉ ["type", "enum", "description"], Fields.get? gs key = Fields.get? fs key)
    (type : TypeAllows gs x ↔ TypeAllows fs x) (enum : EnumAllows gs x ↔ EnumAllows fs x) :
    Valid (.obj gs) x ↔ Valid (.obj fs) x := by
  constructor
  · intro valid
    exact valid.reword (fun key other => (same key other).symm) (type.mp valid.typeAllows)
      (enum.mp valid.enumAllows)
  · intro valid
    exact valid.reword same (type.mpr valid.typeAllows) (enum.mpr valid.enumAllows)

/-- Of null only `type` and `enum` say something. -/
theorem null_iff : Valid (.obj fs) .null ↔ TypeAllows fs .null ∧ EnumAllows fs .null := by
  constructor
  · intro valid
    exact ⟨valid.typeAllows, valid.enumAllows⟩
  · rintro ⟨type, enum⟩
    exact .keywords type enum nofun nofun nofun nofun

end Valid

end Promptry.Schema
