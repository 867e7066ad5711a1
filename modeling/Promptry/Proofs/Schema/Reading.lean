import Promptry.Proofs.Schema.Expansion

/-!
The answer of a conversion, step by step. The names that are asked for are recorded and never looked
at (`steady_expand`), so a conversion in two steps answers what the second step answers to the first
(`result_bind`). Reading an object succeeds if every field can be read by itself
(`expandFields_isOk_iff`), and each field then has the property that it would have by itself
(`get?_of_expandFields`). The fields without a question mark are required, in order
(`required_of_expandFields`).
-/

namespace Promptry.Schema

variable {α β : Type} {resolver : Option (Resolver Json)}

/-! ### Steps -/

/-- The answer does not depend on what was asked before. -/
def Steady (m : Asking α) : Prop :=
  ∀ asked, (Id.run (StateT.run (ExceptT.run m) asked)).1 = m.result.1

/-- What is answered by two steps, the second of which does not look back. -/
theorem result_bind (m : Asking α) {f : α → Asking β} (steady : ∀ a, Steady (f a)) :
    (m >>= f).result.1 = m.result.1 >>= fun a => (f a).result.1 := by
  simp only [Asking.result, ExceptT.run_bind, StateT.run_bind]
  cases StateT.run (ExceptT.run m) [] with
  | mk answer asked =>
    cases answer with
    | error e => rfl
    | ok a => exact steady a asked

namespace Steady

theorem pure (a : α) : Steady (Pure.pure a : Asking α) := fun _ => rfl

theorem throw (e : SchemaError) : Steady (MonadExcept.throw e : Asking α) := fun _ => rfl

theorem bind {m : Asking α} {f : α → Asking β} (first : Steady m)
    (second : ∀ a, Steady (f a)) : Steady (m >>= f) := by
  intro asked
  rw [result_bind m second, ← first asked]
  simp only [ExceptT.run_bind, StateT.run_bind]
  cases StateT.run (ExceptT.run m) asked with
  | mk answer asked' =>
    cases answer with
    | error e => rfl
    | ok a => exact second a asked'

end Steady

theorem steady_named (name : String) : Steady (named resolver name) := by
  intro asked
  cases resolver with
  | none => rfl
  | some resolve =>
    rw [named]
    cases resolve name <;> rfl

theorem steady_property {k : String} {v : Json} (value : Steady (expand resolver v)) :
    Steady (property resolver k v) := by
  unfold property
  split
  · exact value.bind fun items => .pure _
  · split
    · exact .pure _
    · exact .throw _
  · exact .throw _
  · exact value

theorem steady_expandFields {fs : Fields} (values : ∀ f ∈ fs, Steady (expand resolver f.2))
    (d : ObjectDraft) : Steady (expandFields resolver d fs) := by
  induction fs generalizing d with
  | nil =>
    rw [expandFields]
    exact .pure d
  | cons f rest ih =>
    obtain ⟨k, v⟩ := f
    have value : Steady (expand resolver v) := values (k, v) List.mem_cons_self
    have later := ih fun f mem => values f (List.mem_cons_of_mem (k, v) mem)
    by_cases field : k = wildcard
    · subst field
      rw [expandFields_wildcard]
      exact value.bind fun additional => later _
    · rw [expandFields_field resolver field]
      exact (steady_property value).bind fun schema => later _

/-- No answer depends on what was asked before. -/
theorem steady_expand (v : Json) : Steady (expand resolver v) := by
  match v with
  | .str t =>
    rw [expand_text]
    refine Steady.bind ?_ fun schema => .pure _
    split
    · exact .pure _
    · exact steady_named _
  | .obj fs =>
    rw [expand]
    exact (steady_expandFields (fun f mem => steady_expand f.2) {}).bind fun d => .pure _
  | .null | .bool _ | .num _ | .arr _ => exact .throw _
termination_by sizeOf v
decreasing_by exact sizeOf_field_lt mem

/-! ### Fields -/

/-- What a field is read to: its property, or the schema of all other fields. -/
def reading (resolver : Option (Resolver Json)) (f : String × Json) : Except SchemaError Json :=
  if f.1 = wildcard then (expand resolver f.2).result.1 else (property resolver f.1 f.2).result.1

/-- The draft with what a field was read to. -/
def ObjectDraft.put (d : ObjectDraft) (k : String) (s : Json) : ObjectDraft :=
  if k = wildcard then { d with additional := s } else d.addProperty (FieldKey.ofText k) s

/-- Each field is read by itself, whatever draft it goes into. -/
theorem result_expandFields (d : ObjectDraft) (f : String × Json) (rest : Fields) :
    (expandFields resolver d (f :: rest)).result.1 =
      reading resolver f >>= fun s => (expandFields resolver (d.put f.1 s) rest).result.1 := by
  obtain ⟨k, v⟩ := f
  have later (d : ObjectDraft) : Steady (expandFields resolver d rest) :=
    steady_expandFields (fun f _ => steady_expand f.2) d
  by_cases field : k = wildcard
  · subst field
    rw [expandFields_wildcard, result_bind _ fun additional => later _]
    simp only [reading, ObjectDraft.put, if_true]
  · rw [expandFields_field resolver field, result_bind _ fun schema => later _]
    simp only [reading, ObjectDraft.put, if_neg field]

/-- Fields can be read one behind the other if and only if each can be read by itself. -/
theorem expandFields_isOk_iff (d : ObjectDraft) (fs : Fields) :
    (∃ d', (expandFields resolver d fs).result.1 = .ok d') ↔
      ∀ f ∈ fs, ∃ s, reading resolver f = .ok s := by
  induction fs generalizing d with
  | nil =>
    rw [expandFields]
    exact iff_of_true ⟨d, rfl⟩ fun f mem => absurd mem List.not_mem_nil
  | cons f rest ih =>
    rw [List.forall_mem_cons, result_expandFields]
    constructor
    · rintro ⟨d', answer⟩
      obtain ⟨s, here, later⟩ := exists_of_bind_eq_ok answer
      exact ⟨⟨s, here⟩, (ih _).mp ⟨d', later⟩⟩
    · rintro ⟨⟨s, here⟩, others⟩
      rw [here]
      exact (ih _).mpr others

/-- A field changes no property but its own. -/
theorem get?_put_of_ne {d : ObjectDraft} {k name : String} (other : nameOf? k ≠ some name)
    (s : Json) : Fields.get? (d.put k s).properties name = Fields.get? d.properties name := by
  unfold ObjectDraft.put
  split
  · rfl
  · rename_i field
    have ne : name ≠ (FieldKey.ofText k).name := by
      rintro rfl
      exact other (if_neg field)
    rw [ObjectDraft.properties_addProperty, Fields.get?_insert_of_ne ne]

theorem get?_put_self {d : ObjectDraft} {k : String} (field : k ≠ wildcard) (s : Json) :
    Fields.get? (d.put k s).properties (FieldKey.ofText k).name =
      some (ObjectDraft.added (FieldKey.ofText k) s) := by
  rw [ObjectDraft.put, if_neg field, ObjectDraft.properties_addProperty]
  exact Fields.get?_insert_self _ _ _

/-- Fields of other names leave a property as it is. -/
theorem get?_of_expandFields_of_ne {d d' : ObjectDraft} {fs : Fields} {name : String}
    (answer : (expandFields resolver d fs).result.1 = .ok d')
    (others : ∀ f ∈ fs, nameOf? f.1 ≠ some name) :
    Fields.get? d'.properties name = Fields.get? d.properties name := by
  induction fs generalizing d with
  | nil =>
    rw [expandFields] at answer
    cases answer
    rfl
  | cons f rest ih =>
    rw [result_expandFields] at answer
    obtain ⟨s, -, later⟩ := exists_of_bind_eq_ok answer
    rw [List.forall_mem_cons] at others
    rw [ih later others.2, get?_put_of_ne others.1]

/-- A field has the property that it is read to by itself, if no later field bears its name. -/
theorem get?_of_expandFields {d d' : ObjectDraft} {before after : Fields} {k : String} {v : Json}
    (answer : (expandFields resolver d (before ++ (k, v) :: after)).result.1 = .ok d')
    (field : k ≠ wildcard) (last : ∀ f ∈ after, nameOf? f.1 ≠ nameOf? k) :
    ∃ s, (property resolver k v).result.1 = .ok s ∧
      Fields.get? d'.properties (FieldKey.ofText k).name =
        some (ObjectDraft.added (FieldKey.ofText k) s) := by
  induction before generalizing d with
  | nil =>
    rw [List.nil_append, result_expandFields] at answer
    obtain ⟨s, here, later⟩ := exists_of_bind_eq_ok answer
    rw [reading, if_neg field] at here
    have named : nameOf? k = some (FieldKey.ofText k).name := if_neg field
    refine ⟨s, here, ?_⟩
    rw [get?_of_expandFields_of_ne later (named ▸ last), get?_put_self field]
  | cons f before ih =>
    rw [List.cons_append, result_expandFields] at answer
    obtain ⟨s, -, later⟩ := exists_of_bind_eq_ok answer
    exact ih later

/-! ### Required fields -/

/-- Whether a key makes its field a required one. -/
def isRequired (k : String) : Bool := k != wildcard && !(FieldKey.ofText k).optional

/-- The names of the fields without a question mark, in order. -/
def requiredNames (fs : Fields) : List String :=
  (fs.filter fun f => isRequired f.1).map fun f => (FieldKey.ofText f.1).name

theorem nameOf?_of_required {k : String} (required : isRequired k = true) :
    nameOf? k = some (FieldKey.ofText k).name := by
  rw [isRequired, Bool.and_eq_true, bne_iff_ne] at required
  exact if_neg required.1

theorem mem_requiredNames {fs : Fields} {name : String} : name ∈ requiredNames fs ↔
    ∃ f ∈ fs, isRequired f.1 = true ∧ nameOf? f.1 = some name := by
  simp only [requiredNames, List.mem_map, List.mem_filter, and_assoc]
  constructor
  · rintro ⟨f, mem, required, rfl⟩
    exact ⟨f, mem, required, nameOf?_of_required required⟩
  · rintro ⟨f, mem, required, same⟩
    rw [nameOf?_of_required required, Option.some.injEq] at same
    exact ⟨f, mem, required, same⟩

theorem required_put (d : ObjectDraft) (k : String) (s : Json) : (d.put k s).required =
    if isRequired k then (FieldKey.ofText k).name :: d.required else d.required := by
  unfold ObjectDraft.put isRequired
  by_cases field : k = wildcard
  · simp [field]
  · cases optional : (FieldKey.ofText k).optional <;>
      simp [field, ObjectDraft.addProperty, optional]

/-- Reading fields adds the names of those that are required. The draft holds them last first. -/
theorem required_of_expandFields {d d' : ObjectDraft} {fs : Fields}
    (answer : (expandFields resolver d fs).result.1 = .ok d') :
    d'.required.reverse = d.required.reverse ++ requiredNames fs := by
  induction fs generalizing d with
  | nil =>
    rw [expandFields] at answer
    cases answer
    simp [requiredNames]
  | cons f rest ih =>
    rw [result_expandFields] at answer
    obtain ⟨s, -, later⟩ := exists_of_bind_eq_ok answer
    rw [ih later, required_put]
    cases required : isRequired f.1 <;> simp [requiredNames, required]

/-! ### Values -/

/-- The schema of a field whose value has the schema `s`. -/
def Form.around (form : Form) (s : Json) : Json :=
  match form with
  | .array => .obj [("type", .str "array"), ("items", s)]
  | _ => s

/-- A field that is no enumeration is read to the schema of its value. -/
theorem result_property {k : String} {v : Json}
    (simple : (FieldKey.ofText k).form ∈ [Form.plain, .array, .object]) :
    (property resolver k v).result.1 =
      (expand resolver v).result.1.map (FieldKey.ofText k).form.around := by
  simp only [List.mem_cons, List.not_mem_nil, or_false] at simple
  rcases simple with form | form | form
  · simp only [property, form]
    cases (expand resolver v).result.1 <;> rfl
  · simp only [property, form]
    exact congrArg Prod.fst (result_map _ _)
  · simp only [property, form]
    cases (expand resolver v).result.1 <;> rfl

/-! ### Objects -/

/-- The property of an object schema under a name. -/
def propertyOf? (schema : Json) (name : String) : Option Json :=
  match schema with
  | .obj fs =>
    match Fields.get? fs "properties" with
    | some (.obj ps) => Fields.get? ps name
    | _ => none
  | _ => none

theorem propertyOf?_schema (d : ObjectDraft) (name : String) :
    propertyOf? d.schema name = Fields.get? d.properties name := by
  obtain ⟨fs, same, -, -, -, properties, -⟩ := d.schema_eq
  simp only [propertyOf?, same, properties]

/-- What an object shorthand is expanded to. -/
theorem result_expand_obj (fs : Fields) : (expand resolver (.obj fs)).result.1 =
    (expandFields resolver {} fs).result.1.map ObjectDraft.schema := by
  rw [expand, result_map]

end Promptry.Schema
