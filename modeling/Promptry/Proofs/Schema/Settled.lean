import Promptry.Proofs.Except
import Promptry.Schema.Shorthand

/-!
What a shorthand becomes, and what becomes of that if it is taken for a shorthand again. An object
becomes one with a type, and stays so; a text becomes the schema of its type or of its name,
whatever that is. Of the scalar types only `any` has a schema without a type, which is an empty
object in shorthand. Main statements: `becomes_of_ofShorthand`, `ofShorthand_eq_self_iff` and
`Becomes.settled_iff`.
-/

namespace Promptry.Schema

variable {α β : Type} {lookup : Option (Resolver Json)} {v s : Json} {t : String}

/-! ### Answers -/

theorem result_pure (a : α) : (pure a : Asking α).result = (.ok a, []) := rfl

theorem result_map (f : α → β) (m : Asking α) :
    (do return f (← m) : Asking β).result = (m.result.1.map f, m.result.2) := by
  simp only [Asking.result, ExceptT.run_bind, StateT.run_bind]
  cases StateT.run (ExceptT.run m) [] with
  | mk answer asked => cases answer <;> rfl

theorem named_eq_ok_iff {name : String} : (named lookup name).result.1 = .ok s ↔
    ∃ resolve, lookup = some resolve ∧ resolve name = .found s := by
  constructor
  · intro answer
    cases lookup with
    | none => cases answer
    | some resolve =>
      refine ⟨resolve, rfl, ?_⟩
      rw [named] at answer
      cases found : resolve name with
      | found s' =>
        rw [found] at answer
        cases answer
        rfl
      | missing | failed cause =>
        rw [found] at answer
        cases answer
  · rintro ⟨resolve, rfl, found⟩
    rw [named, found]
    rfl

/-! ### Texts -/

/-- The name in a text. -/
def nameIn (t : String) : String := (splitDescription t.toList).1

/-- The description in a text. -/
def noteIn (t : String) : Option String := (splitDescription t.toList).2

/-- A schema is found under the name in a text. -/
def Finds (lookup : Option (Resolver Json)) (t : String) (s : Json) : Prop :=
  nameIn t ∉ scalarTypes ∧ ∃ resolve, lookup = some resolve ∧ resolve (nameIn t) = .found s

theorem expand_text (t : String) : expand lookup (.str t) = do
    let schema ← (if scalarTypes.contains (nameIn t) then pure (scalarSchema (nameIn t))
      else named lookup (nameIn t) : Asking Json)
    return describe (noteIn t) schema := by
  rw [expand]
  rfl

theorem ofShorthand_text (t : String) : (ofShorthand lookup (.str t)).result.1 =
    (if scalarTypes.contains (nameIn t) then .ok (scalarSchema (nameIn t))
      else (named lookup (nameIn t)).result.1).map fun s => some (describe (noteIn t) s) := by
  rw [ofShorthand, result_map, expand_text, result_map]
  · split
    · rw [result_pure]
      rfl
    · cases (named lookup (nameIn t)).result.1 <;> rfl
  all_goals exact nofun

/-! ### Objects -/

theorem contains_type_insert_of_ne {fs : Fields} {key : String} (ne : "type" ≠ key) (value : Json) :
    Fields.contains (Fields.insert fs key value) "type" = Fields.contains fs "type" := by
  rw [Fields.contains, Fields.get?_insert_of_ne ne]
  rfl

theorem contains_type_withType (fs : Fields) : Fields.contains (withType fs) "type" = true := by
  rw [withType]
  split
  · assumption
  · rw [Fields.contains, Fields.get?_insert_self]
    rfl

theorem withType_of_contains {fs : Fields} (typed : Fields.contains fs "type" = true) :
    withType fs = fs := if_pos typed

/-- What is no JSON Schema is expanded. -/
theorem ofShorthand_eq_expand (shorthand : isJsonSchema v = false) (notNull : v ≠ .null) :
    ofShorthand lookup v = do return some (← expand lookup v) := by
  cases v with
  | null => exact absurd rfl notNull
  | obj fs => rw [ofShorthand, shorthand, if_neg Bool.false_ne_true]
  | _ => rfl

/-- An object becomes one with a type. -/
theorem contains_type_of_ofShorthand {fs : Fields} {answer : Option Json}
    (ok : (ofShorthand lookup (.obj fs)).result.1 = .ok answer) :
    ∃ gs, answer = some (.obj gs) ∧ Fields.contains gs "type" = true := by
  rw [ofShorthand] at ok
  split at ok
  · rw [result_pure] at ok
    exact ⟨withType fs, (Except.ok.inj ok).symm, contains_type_withType fs⟩
  · rw [result_map, expand, result_map] at ok
    obtain ⟨schema, made, rfl⟩ := exists_of_map_eq_ok ok
    obtain ⟨draft, -, rfl⟩ := exists_of_map_eq_ok made
    exact ⟨_, rfl, rfl⟩

/-! ### Becoming and staying -/

/-- What a shorthand becomes. -/
inductive Becomes (lookup : Option (Resolver Json)) : Json → Option Json → Prop
  | null : Becomes lookup .null none
  | object {fs gs : Fields} (typed : Fields.contains gs "type" = true) :
      Becomes lookup (.obj fs) (some (.obj gs))
  | scalar {t : String} (known : nameIn t ∈ scalarTypes) :
      Becomes lookup (.str t) (some (describe (noteIn t) (scalarSchema (nameIn t))))
  | named {t : String} {s : Json} (found : Finds lookup t s) :
      Becomes lookup (.str t) (some (describe (noteIn t) s))

theorem becomes_of_ofShorthand {answer : Option Json}
    (ok : (ofShorthand lookup v).result.1 = .ok answer) : Becomes lookup v answer := by
  cases v with
  | null =>
    cases ok
    exact .null
  | bool | num | arr =>
    rw [ofShorthand, result_map, expand] at ok
    · cases ok
    all_goals exact nofun
  | obj fs =>
    obtain ⟨gs, rfl, typed⟩ := contains_type_of_ofShorthand ok
    exact .object typed
  | str t =>
    rw [ofShorthand_text] at ok
    obtain ⟨s, made, rfl⟩ := exists_of_map_eq_ok ok
    by_cases known : nameIn t ∈ scalarTypes
    · rw [if_pos (List.contains_iff_mem.mpr known)] at made
      cases made
      exact .scalar known
    · rw [if_neg fun mem => known (List.contains_iff_mem.mp mem)] at made
      exact .named ⟨known, named_eq_ok_iff.mp made⟩

/-- What stays as it is: nothing, an object with a type, and a text under whose name the text itself
is found. -/
def Settled (lookup : Option (Resolver Json)) : Option Json → Prop
  | none => True
  | some (.obj fs) => Fields.contains fs "type" = true
  | some (.str t) => Finds lookup t (.str t)
  | some _ => False

/-- What becomes something settled: all but a text that says `any`, or one under whose name
something is found that does not stay as it is. -/
def BecomesSettled (lookup : Option (Resolver Json)) : Json → Prop
  | .str t => nameIn t ≠ "any" ∧ ∀ s, Finds lookup t s → Settled lookup (some s)
  | _ => True

/-- A description does not settle anything. -/
theorem settled_describe (note : Option String) (s : Json) :
    Settled lookup (some (describe note s)) ↔ Settled lookup (some s) := by
  cases note with
  | none => rfl
  | some d =>
    cases s with
    | obj fs =>
      have ne : "type" ≠ "description" := by decide
      rw [describe, Settled, contains_type_insert_of_ne ne]
      rfl
    | _ => rfl

theorem eq_text_of_describe {note : Option String} (same : describe note s = .str t) :
    s = .str t := by
  cases note with
  | none => exact same
  | some d =>
    cases s with
    | obj fs => cases same
    | _ => exact same

theorem settled_scalarSchema (type : String) :
    Settled lookup (some (scalarSchema type)) ↔ type ≠ "any" := by
  by_cases any : type = "any"
  · rw [scalarSchema, if_pos any]
    exact ⟨nofun, fun other => absurd any other⟩
  · rw [scalarSchema, if_neg any]
    exact ⟨fun _ => any, fun _ => rfl⟩

theorem scalarSchema_ne_text (type t : String) : scalarSchema type ≠ .str t := by
  rw [scalarSchema]
  split <;> exact nofun

/-- What becomes itself is settled. -/
theorem Becomes.settled_of_self {answer : Option Json} (becomes : Becomes lookup v answer)
    (same : answer = some v) : Settled lookup answer := by
  cases becomes with
  | null => cases same
  | object typed => exact typed
  | @scalar t known =>
    exact absurd (eq_text_of_describe (Option.some.inj same)) (scalarSchema_ne_text _ t)
  | named found =>
    rw [settled_describe]
    cases eq_text_of_describe (Option.some.inj same)
    exact found

/-- What is settled becomes itself. -/
theorem ofShorthand_of_settled (settled : Settled lookup (some v)) :
    (ofShorthand lookup v).result.1 = .ok (some v) := by
  cases v with
  | null | bool | num | arr => cases settled
  | obj fs =>
    have typed : Fields.contains fs "type" = true := settled
    have shaped : isJsonSchema (.obj fs) = true := by
      rw [isJsonSchema, typed]
      rfl
    rw [ofShorthand, if_pos shaped, result_pure, withType_of_contains typed]
  | str t =>
    obtain ⟨unknown, found⟩ := settled
    rw [ofShorthand_text, if_neg fun mem => unknown (List.contains_iff_mem.mp mem),
      named_eq_ok_iff.mpr found]
    cases noteIn t <;> rfl

/-- A schema becomes itself if and only if it is settled. -/
theorem ofShorthand_eq_self_iff :
    (ofShorthand lookup v).result.1 = .ok (some v) ↔ Settled lookup (some v) :=
  ⟨fun same => (becomes_of_ofShorthand same).settled_of_self rfl, ofShorthand_of_settled⟩

/-- Whether the schema of a shorthand is settled can be seen from the shorthand. -/
theorem Becomes.settled_iff {answer : Option Json} (becomes : Becomes lookup v answer) :
    Settled lookup answer ↔ BecomesSettled lookup v := by
  cases becomes with
  | null => exact Iff.rfl
  | object typed => exact iff_of_true typed trivial
  | scalar known =>
    rw [settled_describe, settled_scalarSchema]
    exact (and_iff_left fun s found => absurd known found.1).symm
  | @named t s found =>
    have unlike : nameIn t ≠ "any" := fun any => found.1 (by rw [any]; decide)
    rw [settled_describe]
    refine ⟨fun settled => ⟨unlike, fun s' found' => ?_⟩, fun settles => settles.2 s found⟩
    obtain ⟨-, resolve, here, there⟩ := found
    obtain ⟨-, resolve', here', there'⟩ := found'
    cases here.symm.trans here'
    cases there.symm.trans there'
    exact settled

end Promptry.Schema
