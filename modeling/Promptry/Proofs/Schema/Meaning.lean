import Promptry.Proofs.Schema.Keys
import Promptry.Proofs.Schema.Validity
import Promptry.Schema.Shorthand

/-!
What a shorthand means by itself, without the JSON Schema that it stands for and without the reader
of its keys. `Matches` says which values it is the shorthand of. `everywhere` puts a test to all
shorthands within one: that each names a type that needs no look-up (`nameless`), that no two fields
of an object bear one name (`distinct`), that the keys and values are such as can be read
(`wellFormed`). Main statements: `matches_str_iff` and `matches_obj_iff`, what `Matches` comes to if
keys are read.
-/

namespace Promptry.Schema

/-! ### Values -/

/-- The name that a key gives to a field. The key for all other fields gives none. -/
def nameOf? (key : String) : Option String :=
  if key = wildcard then none else some (FieldKey.ofText key).name

/-- A key gives a name to its field, but that for all other fields does not. -/
inductive Names (k : String) : Option String → Prop where
  | wildcard : k = wildcard → Names k none
  | field {key : FieldKey} : k ≠ wildcard → KeyOf k key → Names k (some key.name)

theorem names_iff {k : String} {name : Option String} : Names k name ↔ nameOf? k = name := by
  constructor
  · intro names
    cases names with
    | wildcard same => exact if_pos same
    | field ne given => rw [nameOf?, if_neg ne, keyOf_iff.mp given]
  · rintro rfl
    by_cases field : k = wildcard
    · rw [nameOf?, if_pos field]
      exact .wildcard field
    · rw [nameOf?, if_neg field]
      exact .field field (keyOf_iff.mpr rfl)

mutual

/-- The values that match a shorthand. -/
inductive Matches : Json → Json → Prop where
  | any {s : String} {note : Option String} {x : Json} : Annotated s.toList "any" note →
      Matches (.str s) x
  | scalar {s type : String} {note : Option String} {x : Json} : Annotated s.toList type note →
      HasType type x → Matches (.str s) x
  | object {fs ys : Fields}
      (fields : ∀ f ∈ fs, f.1 ≠ wildcard → ∀ key, KeyOf f.1 key →
        MatchesField key f.2 (Fields.get? ys key.name))
      (others : ∀ name y, Fields.get? ys name = some y → (∀ f ∈ fs, ¬ Names f.1 (some name)) →
        Fields.contains fs wildcard = true)
      (wild : ∀ name y v, Fields.get? ys name = some y → (∀ f ∈ fs, ¬ Names f.1 (some name)) →
        Fields.get? fs wildcard = some v → Matches v y) :
      Matches (.obj fs) (.obj ys)

/-- What may be found under the name of a field. -/
inductive MatchesField : FieldKey → Json → Option Json → Prop where
  | absent {key : FieldKey} {v : Json} : key.optional = true → MatchesField key v none
  | null {key : FieldKey} {v : Json} : key.optional = true → MatchesField key v (some .null)
  | present {key : FieldKey} {v y : Json} : MatchesForm key.form v y → MatchesField key v (some y)

/-- The values that match a shorthand meant in some form. -/
inductive MatchesForm : Form → Json → Json → Prop where
  | plain {v x : Json} : Matches v x → MatchesForm .plain v x
  | object {v x : Json} : Matches v x → MatchesForm .object v x
  | array {v : Json} {ys : List Json} : (∀ y ∈ ys, Matches v y) → MatchesForm .array v (.arr ys)
  | enumeration {members : List Json} {m x : Json} : m ∈ members → Equal m x →
      MatchesForm .enumeration (.arr members) x

end

theorem matchesField_none {key : FieldKey} {v : Json} :
    MatchesField key v none ↔ key.optional = true := by
  constructor
  · intro h
    cases h with
    | absent optional => exact optional
  · exact .absent

theorem matchesField_some {key : FieldKey} {v y : Json} : MatchesField key v (some y) ↔
    (key.optional = true ∧ y = .null) ∨ MatchesForm key.form v y := by
  constructor
  · intro h
    cases h with
    | null optional => exact .inl ⟨optional, rfl⟩
    | present h => exact .inr h
  · rintro (⟨optional, rfl⟩ | h)
    · exact .null optional
    · exact .present h

theorem matches_str_iff {s : String} {x : Json} : Matches (.str s) x ↔
    (splitDescription s.toList).1 = "any" ∨ HasType (splitDescription s.toList).1 x := by
  constructor
  · intro matched
    cases matched with
    | any annotated => exact .inl (by rw [annotated.split_eq])
    | scalar annotated hasType => exact .inr (by rwa [annotated.split_eq])
  · rintro (any | hasType)
    · exact .any (any ▸ annotated_split s.toList)
    · exact .scalar (annotated_split s.toList) hasType

/-- The fields of an object, each read as its key is. -/
theorem matches_obj_iff {fs : Fields} {x : Json} : Matches (.obj fs) x ↔ ∃ ys, x = .obj ys ∧
    (∀ f ∈ fs, f.1 ≠ wildcard →
      MatchesField (FieldKey.ofText f.1) f.2 (Fields.get? ys (FieldKey.ofText f.1).name)) ∧
    (∀ name y, Fields.get? ys name = some y → (∀ f ∈ fs, nameOf? f.1 ≠ some name) →
      Fields.contains fs wildcard = true) ∧
    ∀ name y v, Fields.get? ys name = some y → (∀ f ∈ fs, nameOf? f.1 ≠ some name) →
      Fields.get? fs wildcard = some v → Matches v y := by
  constructor
  · intro matched
    cases matched with
    | @object _ ys fields others wild =>
      simp only [keyOf_iff, forall_eq', names_iff] at fields others wild
      exact ⟨ys, rfl, fields, others, wild⟩
  · rintro ⟨ys, rfl, fields, others, wild⟩
    apply Matches.object <;> simpa only [keyOf_iff, forall_eq', names_iff]

/-! ### Shorthands -/

/-- Whether the value under a key is a shorthand itself. Enumerated values are not. -/
def nests (key : String) : Bool := key == wildcard || !decide (HasForm key .enumeration)

theorem nests_eq (key : String) :
    nests key = (key == wildcard || (FieldKey.ofText key).form != .enumeration) := by
  simp only [nests, hasForm_iff]
  rfl

mutual

/-- Whether a shorthand and all shorthands within it pass a test. -/
def everywhere (test : Json → Bool) : Json → Bool
  | .obj fs => test (.obj fs) && everywhereIn test fs
  | v => test v

def everywhereIn (test : Json → Bool) : List (String × Json) → Bool
  | [] => true
  | (k, v) :: rest => (!nests k || everywhere test v) && everywhereIn test rest

end

/-- A text names a scalar type. -/
def NamesScalar (s : String) : Prop := ∃ type ∈ scalarTypes, ∃ note, Annotated s.toList type note

theorem namesScalar_iff {s : String} :
    NamesScalar s ↔ (splitDescription s.toList).1 ∈ scalarTypes := by
  constructor
  · rintro ⟨type, mem, note, annotated⟩
    rwa [annotated.split_eq]
  · exact fun mem => ⟨_, mem, _, annotated_split s.toList⟩

instance (s : String) : Decidable (NamesScalar s) := decidable_of_iff _ namesScalar_iff.symm

/-- Whether all types are scalar. -/
def nameless : Json → Bool :=
  everywhere fun
    | .str s => decide (NamesScalar s)
    | _ => true

/-- Two keys give different names, if any. -/
def NamedApart (k k' : String) : Prop := ∀ name, Names k name → ¬ Names k' name

theorem namedApart_iff {k k' : String} : NamedApart k k' ↔ nameOf? k ≠ nameOf? k' := by
  simp only [NamedApart, names_iff, forall_eq', ne_eq, eq_comm (b := nameOf? k)]

instance (k k' : String) : Decidable (NamedApart k k') := decidable_of_iff _ namedApart_iff.symm

/-- Whether the names of the fields of each object are distinct. The key for all other fields stands
once, as every key does. -/
def distinct : Json → Bool :=
  everywhere fun
    | .obj fs => decide (fs.Pairwise fun f g => NamedApart f.1 g.1)
    | _ => true

theorem pairwise_namedApart_iff {fs : Fields} :
    fs.Pairwise (fun f g => NamedApart f.1 g.1) ↔ (fs.map fun f => nameOf? f.1).Nodup := by
  simp only [namedApart_iff, List.Nodup, List.pairwise_map]

/-- A field can be read: its form is known, and enumerated values are listed. -/
inductive Readable (k : String) : Json → Prop where
  | others {v : Json} : k = wildcard → Readable k v
  | value {v : Json} {form : Form} : HasForm k form → form ∈ [Form.plain, .array, .object] →
      Readable k v
  | listed {members : List Json} : HasForm k .enumeration → Readable k (.arr members)

theorem readable_iff {k : String} {v : Json} : Readable k v ↔ k = wildcard ∨
    (FieldKey.ofText k).form ∈ [Form.plain, .array, .object] ∨
      (FieldKey.ofText k).form = .enumeration ∧ ∃ members, v = .arr members := by
  constructor
  · intro readable
    cases readable with
    | others same => exact .inl same
    | value has known => exact .inr (.inl (hasForm_iff.mp has ▸ known))
    | listed has => exact .inr (.inr ⟨hasForm_iff.mp has, _, rfl⟩)
  · rintro (same | known | ⟨form, members, rfl⟩)
    · exact .others same
    · exact .value (hasForm_iff.mpr rfl) known
    · exact .listed (hasForm_iff.mpr form)

instance : (v : Json) → Decidable (∃ members, v = .arr members)
  | .arr members => isTrue ⟨members, rfl⟩
  | .null | .bool _ | .num _ | .str _ | .obj _ => isFalse nofun

instance (k : String) (v : Json) : Decidable (Readable k v) := decidable_of_iff _ readable_iff.symm

/-- Whether a shorthand is made of texts, and of objects with fields that can be read. -/
def wellFormed : Json → Bool :=
  everywhere fun
    | .str _ => true
    | .obj fs => fs.all fun f => decide (Readable f.1 f.2)
    | _ => false

end Promptry.Schema
