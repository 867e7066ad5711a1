import Promptry.Proofs.Schema.Nodes

/-!
Which shorthands are converted, and what is asked for. A shorthand is grammatical if it is made of
texts and objects, with forms that are known, lists of enumerated values and names that can be
looked up. The names are looked up in the order of the document, each where it stands, and the first
node that is refused ends the conversion. Main statement: `ofShorthand_follows_document`.
-/

namespace Promptry.Schema

variable {resolver : Option (Resolver Json)} {v : Json}

/-! ### The grammar -/

/-- The shorthands that can be converted. -/
structure Grammatical (resolver : Option (Resolver Json)) (v : Json) : Prop where
  /-- All shorthands in it are texts or objects. -/
  values : ∀ w, .value w ∈ nodes v → (∃ t, w = .str t) ∨ ∃ fs, w = .obj fs
  /-- The word in parentheses, if there is one, is a known form. -/
  forms : ∀ k w, .field k w ∈ nodes v → k ≠ wildcard →
    ∃ form ∈ [Form.plain, .array, .object, .enumeration], HasForm k form
  /-- Enumerated values are listed. -/
  lists : ∀ k w, .field k w ∈ nodes v → HasForm k .enumeration → ∃ members, w = .arr members
  /-- There is a schema for every name that is no scalar type. -/
  names : ∀ t, .value (.str t) ∈ nodes v → ∀ name note, Annotated t.toList name note →
    name ∉ scalarTypes → ∃ resolve s, resolver = some resolve ∧ resolve name = .found s

/-- The names of schemas in a shorthand, in the order of the document, each as often as it stands
there. -/
def namesIn (v : Json) : List String := (nodes v).filterMap Node.name?

/-- Why a conversion ends at a node. -/
inductive Node.Refused (resolver : Option (Resolver Json)) : Node → SchemaError → Prop where
  | notShorthand {v : Json} : (∀ t, v ≠ .str t) → (∀ fs, v ≠ .obj fs) →
      Refused resolver (.value v) (.notShorthand v.kindName)
  | nobody {t name : String} {note : Option String} : Annotated t.toList name note →
      name ∉ scalarTypes → resolver = none →
      Refused resolver (.value (.str t)) (.unsupportedType name)
  | missing {t name : String} {note : Option String} {resolve : Resolver Json} :
      Annotated t.toList name note → name ∉ scalarTypes → resolver = some resolve →
      resolve name = .missing → Refused resolver (.value (.str t)) (.unknownSchema name)
  | failed {t name cause : String} {note : Option String} {resolve : Resolver Json} :
      Annotated t.toList name note → name ∉ scalarTypes → resolver = some resolve →
      resolve name = .failed cause → Refused resolver (.value (.str t)) (.lookupFailed name cause)
  | unknownForm {k word : String} {v : Json} : k ≠ wildcard → HasForm k (.unknown word) →
      Refused resolver (.field k v) (.unknownForm word)
  | notListed {k : String} {v : Json} : k ≠ wildcard → HasForm k .enumeration →
      (∀ members, v ≠ .arr members) → Refused resolver (.field k v) (.enumNotList k v.kindName)

theorem Node.Refused.refusal?_eq {n : Node} {err : SchemaError} (refused : n.Refused resolver err) :
    n.refusal? resolver = some err := by
  cases refused with
  | @notShorthand v noText noObject =>
    cases v with
    | str t => exact absurd rfl (noText t)
    | obj fs => exact absurd rfl (noObject fs)
    | _ => rfl
  | nobody annotated unknown here =>
    simp [Node.refusal?, nameIn, annotated.split_eq, unknown, here]
  | missing annotated unknown here answer =>
    simp [Node.refusal?, nameIn, annotated.split_eq, unknown, here, answer]
  | failed annotated unknown here answer =>
    simp [Node.refusal?, nameIn, annotated.split_eq, unknown, here, answer]
  | unknownForm field form =>
    simp [Node.refusal?, field, hasForm_iff.mp form]
  | @notListed k v field form noList =>
    cases v with
    | arr members => exact absurd rfl (noList members)
    | _ => simp [Node.refusal?, field, hasForm_iff.mp form]

theorem refused_text {t : String} {err : SchemaError}
    (refusal : Node.refusal? resolver (.value (.str t)) = some err) :
    Node.Refused resolver (.value (.str t)) err := by
  have annotated : Annotated t.toList (nameIn t) (noteIn t) := annotated_split t.toList
  by_cases known : nameIn t ∈ scalarTypes
  · simp [Node.refusal?, known] at refusal
  · cases resolver with
    | none =>
      simp only [Node.refusal?, if_neg known, Option.some.injEq] at refusal
      exact refusal ▸ .nobody annotated known rfl
    | some resolve =>
      cases answer : resolve (nameIn t) with
      | found s => simp [Node.refusal?, known, answer] at refusal
      | missing =>
        simp only [Node.refusal?, if_neg known, answer, Option.some.injEq] at refusal
        exact refusal ▸ .missing annotated known rfl answer
      | failed cause =>
        simp only [Node.refusal?, if_neg known, answer, Option.some.injEq] at refusal
        exact refusal ▸ .failed annotated known rfl answer

theorem refused_field {k : String} {v : Json} {err : SchemaError}
    (refusal : Node.refusal? resolver (.field k v) = some err) :
    Node.Refused resolver (.field k v) err := by
  by_cases field : k = wildcard
  · simp [Node.refusal?, field] at refusal
  · cases form : (FieldKey.ofText k).form with
    | plain | array | object => simp [Node.refusal?, field, form] at refusal
    | unknown word =>
      simp only [Node.refusal?, if_neg field, form, Option.some.injEq] at refusal
      exact refusal ▸ .unknownForm field (hasForm_iff.mpr form)
    | enumeration =>
      have has : HasForm k .enumeration := hasForm_iff.mpr form
      cases v with
      | arr members => simp [Node.refusal?, field, form] at refusal
      | _ =>
        simp only [Node.refusal?, if_neg field, form, Option.some.injEq] at refusal
        exact refusal ▸ .notListed field has fun _ same => by cases same

theorem refused_iff {n : Node} {err : SchemaError} :
    n.Refused resolver err ↔ n.refusal? resolver = some err := by
  constructor
  · exact Node.Refused.refusal?_eq
  · intro refusal
    cases n with
    | field k v => exact refused_field refusal
    | value v =>
      cases v with
      | str t => exact refused_text refusal
      | obj fs => cases refusal
      | _ =>
        cases refusal
        exact .notShorthand nofun nofun

/-- A node that is not refused. -/
theorem fine_iff {n : Node} :
    n.refusal? resolver = none ↔ ∀ err, ¬ n.Refused resolver err := by
  simp only [refused_iff, Option.eq_none_iff_forall_ne_some, ne_eq]

/-- A shorthand is grammatical if none of its nodes is refused. -/
theorem grammatical_iff :
    Grammatical resolver v ↔ (nodes v).findSome? (Node.refusal? resolver) = none := by
  rw [List.findSome?_eq_none_iff]
  simp only [fine_iff]
  constructor
  · intro grammatical n mem err refused
    cases refused with
    | notShorthand noText noObject =>
      rcases grammatical.values _ mem with ⟨t, same⟩ | ⟨fs, same⟩
      · exact noText t same
      · exact noObject fs same
    | nobody annotated unknown here | missing annotated unknown here answer
    | failed annotated unknown here answer =>
      obtain ⟨resolve, s, here', found⟩ := grammatical.names _ mem _ _ annotated unknown
      simp_all
    | unknownForm field form =>
      obtain ⟨other, known, form'⟩ := grammatical.forms _ _ mem field
      rw [← hasForm_iff.mp form', hasForm_iff.mp form] at known
      simp at known
    | notListed field form noList =>
      obtain ⟨members, same⟩ := grammatical.lists _ _ mem form
      exact noList members same
  · intro fine
    constructor
    case values =>
      intro w mem
      by_contra other
      rw [not_or, not_exists, not_exists] at other
      exact fine _ mem _ (.notShorthand other.1 other.2)
    case forms =>
      intro k w mem field
      have known : ∀ word, (FieldKey.ofText k).form ≠ .unknown word := fun word form =>
        fine _ mem _ (.unknownForm field (hasForm_iff.mpr form))
      refine ⟨_, ?_, hasForm_iff.mpr rfl⟩
      cases form : (FieldKey.ofText k).form with
      | unknown word => exact absurd form (known word)
      | _ => simp
    case lists =>
      intro k w mem form
      have field : k ≠ wildcard := by
        rintro rfl
        exact absurd form (by decide)
      by_contra noList
      exact fine _ mem _ (.notListed field form (not_exists.mp noList))
    case names =>
      intro t mem name note annotated unknown
      cases resolver with
      | none => exact absurd (.nobody annotated unknown rfl) (fine _ mem _)
      | some resolve =>
        cases answer : resolve name with
        | found s => exact ⟨resolve, s, rfl, answer⟩
        | missing => exact absurd (.missing annotated unknown rfl answer) (fine _ mem _)
        | failed cause => exact absurd (.failed annotated unknown rfl answer) (fine _ mem _)

/-! ### What is asked for -/

/-- A resolver is asked for every name. -/
theorem flatMap_asks (resolve : Resolver Json) (ns : List Node) :
    ns.flatMap (Node.asks (some resolve)) = ns.filterMap Node.name? := by
  induction ns with
  | nil => rfl
  | cons n ns ih =>
    rw [List.flatMap_cons, ih, List.filterMap_cons]
    cases here : n.name? <;> simp [Node.asks, here]

/-- Without a resolver, a node with a name is refused. -/
theorem name?_of_fine {n : Node} (fine : n.refusal? none = none) : n.name? = none := by
  cases n with
  | field k w => rfl
  | value w =>
    cases w with
    | str t =>
      by_cases known : nameIn t ∈ scalarTypes
      · exact if_pos known
      · simp [Node.refusal?, known] at fine
    | _ => rfl

/-- The names in a grammatical shorthand are asked for. -/
theorem flatMap_asks_of_fine (fine : (nodes v).findSome? (Node.refusal? resolver) = none) :
    (nodes v).flatMap (Node.asks resolver) = namesIn v := by
  cases resolver with
  | some resolve => exact flatMap_asks resolve (nodes v)
  | none =>
    rw [List.findSome?_eq_none_iff] at fine
    have silent : namesIn v = [] :=
      List.filterMap_eq_nil_iff.mpr fun n mem => name?_of_fine (fine n mem)
    rw [silent, List.flatMap_eq_nil_iff]
    exact fun n mem => rfl

/-! ### Conversions -/

/-- How a shorthand is converted. -/
structure FollowsDocument (resolver : Option (Resolver Json)) (v : Json)
    (result : Except SchemaError (Option Json) × List String) : Prop where
  accepts : (∃ answer, result.1 = .ok answer) ↔ Grammatical resolver v
  /-- The schemas found are put in as they are; no name in them is asked for. -/
  answers : ∀ answer, result.1 = .ok answer →
    answer = some (spliced (found resolver) v) ∧ result.2 = namesIn v
  /-- The first node that is refused gives the error, and nothing behind it is asked for. -/
  fails : ∀ err, result.1 = .error err → ∃ before n after, nodes v = before ++ n :: after ∧
    (∀ m ∈ before, ∀ err, ¬ m.Refused resolver err) ∧ n.Refused resolver err ∧
      result.2 = (before ++ [n]).flatMap (Node.asks resolver)

/-- A shorthand that is neither null nor a JSON Schema already is converted if and only if it is
grammatical. The names in it are asked for in the order of the document, up to the first node that
is refused, which gives the error. -/
theorem ofShorthand_follows_document (shorthand : isJsonSchema v = false) (notNull : v ≠ .null) :
    FollowsDocument resolver v (ofShorthand resolver v).result := by
  rw [ofShorthand_eq_expand shorthand notNull, result_map, result_expand]
  cases refusal : (nodes v).findSome? (Node.refusal? resolver) with
  | none =>
    refine ⟨iff_of_true ⟨_, rfl⟩ (grammatical_iff.mpr refusal), ?_, ?_⟩
    · rintro answer ⟨⟩
      rw [reached_of_fine refusal]
      exact ⟨rfl, flatMap_asks_of_fine refusal⟩
    · rintro err ⟨⟩
  | some err =>
    refine ⟨iff_of_false ?_ ?_, ?_, ?_⟩
    · rintro ⟨answer, ⟨⟩⟩
    · rw [grammatical_iff, refusal]
      exact nofun
    · rintro answer ⟨⟩
    · rintro err' ⟨⟩
      obtain ⟨before, n, after, split, here, fine⟩ := List.findSome?_eq_some_iff.mp refusal
      refine ⟨before, n, after, split, fun m mem => fine_iff.mp (fine m mem),
        refused_iff.mpr here, ?_⟩
      have upTo : reached resolver (nodes v) = before ++ [n] := by
        rw [split, reached_append_of_fine (List.findSome?_eq_none_iff.mpr fine), reached, here]
        rfl
      rw [upTo]

/-- Two schemas that mention each other. -/
def neighbours : Resolver Json := fun name =>
  if name = "Person" then .found (.obj [("home", .str "Address")])
  else if name = "Address" then .found (.obj [("owner", .str "Person")])
  else .missing

/-- A shorthand with names at several depths, one of them twice, and with every form. -/
def household : Json :=
  .obj [("home", .str "Address, Where they live"), ("state(enum)", .arr [.str "on"]),
    ("friends?(array)", .obj [("(*)", .str "Person"), ("age", .str "integer")]),
    ("work(object)", .str "Address")]

/-- What it stands for, with the schemas of the neighbours as they are. -/
def householdSchema : Json :=
  .obj [("type", .str "object"),
    ("properties", .obj [
      ("home", .obj [("owner", .str "Person"), ("description", .str "Where they live")]),
      ("state", .obj [("enum", .arr [.str "on"])]),
      ("friends", .obj [("type", .arr [.str "array", .str "null"]),
        ("items", .obj [("type", .str "object"),
          ("properties", .obj [("age", .obj [("type", .str "integer")])]),
          ("required", .arr [.str "age"]),
          ("additionalProperties", .obj [("home", .str "Address")])])]),
      ("work", .obj [("owner", .str "Person")])]),
    ("required", .arr [.str "home", .str "state", .str "work"]),
    ("additionalProperties", .bool false)]

/-- A shorthand with a form that is not known, in front of a number. -/
def paired : Json :=
  .obj [("a", .str "Person"), ("b(tuple)", .str "Address"), ("c", .num (.int 1))]

/-- Each name is asked for where it stands, and what the schemas found mention is not. The form that
is not known comes before the name under it. -/
theorem ofShorthand_follows_document_household :
    (isJsonSchema household = false ∧ household ≠ .null ∧
      Grammatical (some neighbours) household ∧ (ofShorthand (some neighbours) household).result =
        (.ok (some householdSchema), ["Address", "Person", "Address"])) ∧
    isJsonSchema paired = false ∧ paired ≠ .null ∧ ¬ Grammatical (some neighbours) paired ∧
      (ofShorthand (some neighbours) paired).result =
        (.error (.unknownForm "tuple"), ["Person"]) := by
  have follows := @ofShorthand_follows_document (some neighbours) household rfl nofun
  have converts : (ofShorthand (some neighbours) household).result =
      (.ok (some householdSchema), ["Address", "Person", "Address"]) := rfl
  have follows' := @ofShorthand_follows_document (some neighbours) paired rfl nofun
  have refuses : (ofShorthand (some neighbours) paired).result =
      (.error (.unknownForm "tuple"), ["Person"]) := rfl
  have grammatical := follows.accepts.mp ⟨_, by rw [converts]⟩
  refine ⟨⟨rfl, nofun, grammatical, converts⟩, rfl, nofun, ?_, refuses⟩
  rw [← follows'.accepts, refuses]
  rintro ⟨answer, ⟨⟩⟩

end Promptry.Schema
