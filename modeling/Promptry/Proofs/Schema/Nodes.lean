import Promptry.Proofs.Schema.Reading

/-!
A conversion goes through its shorthand in the order of the document. What it meets there are the
nodes of the shorthand: values that are shorthands themselves, and fields. At each node it asks for
the name in it, if it has one, and it ends at the first node that is refused. A schema that is found
is put in as it is. Main statements: `follows_expand` and `result_expand`.
-/

namespace Promptry.Schema

variable {α β : Type} {resolver : Option (Resolver Json)} {ns later : List Node} {n : Node}
  {err : SchemaError}

/-! ### Nodes -/

/-- What a conversion meets in a shorthand. -/
inductive Node where
  | value (v : Json)
  | field (k : String) (v : Json)

mutual

/-- The nodes of a shorthand, in the order of the document. Enumerated values are no shorthands. -/
def nodes : Json → List Node
  | .obj fs => .value (.obj fs) :: nodesIn fs
  | v => [.value v]

def nodesIn : List (String × Json) → List Node
  | [] => []
  | (k, v) :: rest => .field k v :: (if nests k then nodes v else []) ++ nodesIn rest

end

theorem mem_nodesIn {fs : Fields} : n ∈ nodesIn fs ↔
    ∃ f ∈ fs, n = .field f.1 f.2 ∨ nests f.1 = true ∧ n ∈ nodes f.2 := by
  induction fs with
  | nil => simp [nodesIn]
  | cons f rest ih =>
    obtain ⟨k, v⟩ := f
    rw [nodesIn, List.cons_append, List.mem_cons, List.mem_append, ih, List.exists_mem_cons_iff,
      ← or_assoc]
    cases nests k <;> simp

/-- The nodes of a shorthand within another one are among its nodes. -/
theorem nodes_subset {v w : Json} (mem : .value w ∈ nodes v) : nodes w ⊆ nodes v := by
  match v with
  | .obj fs =>
    rw [nodes, List.mem_cons] at mem
    rcases mem with same | mem
    · cases same
      exact List.Subset.refl _
    · obtain ⟨f, here, other | ⟨inner, within⟩⟩ := mem_nodesIn.mp mem
      · cases other
      · intro n below
        exact List.mem_cons_of_mem _
          (mem_nodesIn.mpr ⟨f, here, .inr ⟨inner, nodes_subset within below⟩⟩)
  | .str _ | .null | .bool _ | .num _ | .arr _ =>
    cases List.mem_singleton.mp mem
    exact List.Subset.refl _
termination_by sizeOf v
decreasing_by exact sizeOf_field_lt here

/-- Why a conversion ends at a node, if it does. -/
def Node.refusal? (resolver : Option (Resolver Json)) : Node → Option SchemaError
  | .value (.str t) =>
    if nameIn t ∈ scalarTypes then none
    else
      match resolver with
      | none => some (.unsupportedType (nameIn t))
      | some resolve =>
        match resolve (nameIn t) with
        | .found _ => none
        | .missing => some (.unknownSchema (nameIn t))
        | .failed cause => some (.lookupFailed (nameIn t) cause)
  | .value (.obj _) => none
  | .value v => some (.notShorthand v.kindName)
  | .field k v =>
    if k = wildcard then none
    else
      match (FieldKey.ofText k).form, v with
      | .unknown word, _ => some (.unknownForm word)
      | .enumeration, .arr _ => none
      | .enumeration, v => some (.enumNotList k v.kindName)
      | _, _ => none

/-- The name of a schema in a node. -/
def Node.name? : Node → Option String
  | .value (.str t) => if nameIn t ∈ scalarTypes then none else some (nameIn t)
  | _ => none

/-- What is asked for at a node: the name in it, if there is anyone to ask. -/
def Node.asks (resolver : Option (Resolver Json)) (n : Node) : List String :=
  if resolver.isSome then n.name?.toList else []

/-- The nodes up to the first that is refused, with that one. -/
def reached (resolver : Option (Resolver Json)) : List Node → List Node
  | [] => []
  | n :: rest => n :: if (n.refusal? resolver).isSome then [] else reached resolver rest

/-- If no node is refused, all are reached. -/
theorem reached_append_of_fine (fine : ns.findSome? (Node.refusal? resolver) = none)
    (later : List Node) : reached resolver (ns ++ later) = ns ++ reached resolver later := by
  induction ns with
  | nil => rfl
  | cons n ns ih =>
    rw [List.findSome?_cons] at fine
    cases refusal : n.refusal? resolver with
    | some err =>
      rw [refusal] at fine
      cases fine
    | none =>
      rw [refusal] at fine
      rw [List.cons_append, reached, refusal, if_neg (by simp), ih fine, List.cons_append]

/-- Nothing is reached behind a node that is refused. -/
theorem reached_append_of_refused (refused : ns.findSome? (Node.refusal? resolver) = some err)
    (later : List Node) : reached resolver (ns ++ later) = reached resolver ns := by
  induction ns with
  | nil => cases refused
  | cons n ns ih =>
    rw [List.findSome?_cons] at refused
    cases refusal : n.refusal? resolver with
    | some err' =>
      rw [List.cons_append, reached, refusal, if_pos Option.isSome_some, reached, refusal,
        if_pos Option.isSome_some]
    | none =>
      rw [refusal] at refused
      rw [List.cons_append, reached, refusal, if_neg (by simp), ih refused, reached, refusal,
        if_neg (by simp)]

theorem reached_of_fine (fine : ns.findSome? (Node.refusal? resolver) = none) :
    reached resolver ns = ns := by
  have whole := reached_append_of_fine fine []
  rwa [List.append_nil, reached, List.append_nil] at whole

/-! ### What is put in -/

/-- The schema that is found for a name. -/
def found (resolver : Option (Resolver Json)) (name : String) : Json :=
  ((resolver.bind fun resolve => (resolve name).found?)).getD .null

/-- The schema of a field whose value has the schema `s`. -/
def fieldSchema (k : String) (v s : Json) : Json :=
  match (FieldKey.ofText k).form with
  | .enumeration => .obj [("enum", v)]
  | form => form.around s

mutual

/-- The schema of a shorthand, with the schema that `named` has for each name put in as it is. -/
def spliced (named : String → Json) : Json → Json
  | .str t => describe (noteIn t)
      (if nameIn t ∈ scalarTypes then scalarSchema (nameIn t) else named (nameIn t))
  | .obj fs => (splicedIn named {} fs).schema
  | v => v

def splicedIn (named : String → Json) (d : ObjectDraft) : List (String × Json) → ObjectDraft
  | [] => d
  | (k, v) :: rest => splicedIn named (d.put k (fieldSchema k v (spliced named v))) rest

end

/-! ### Following -/

/-- The conversion asks for what is asked for at the nodes that it reaches, fails with the first
refusal, and answers `a` if no node is refused. -/
def Follows (resolver : Option (Resolver Json)) (m : Asking α) (ns : List Node) (a : α) : Prop :=
  ∀ asked, Id.run (StateT.run (ExceptT.run m) asked) =
    (match ns.findSome? (Node.refusal? resolver) with
      | some err => .error err
      | none => .ok a,
      ((reached resolver ns).flatMap (Node.asks resolver)).reverse ++ asked)

namespace Follows

theorem pure (a : α) : Follows resolver (Pure.pure a : Asking α) [] a := fun _ => rfl

theorem bind {m : Asking α} {f : α → Asking β} {a : α} {b : β} (first : Follows resolver m ns a)
    (second : Follows resolver (f a) later b) : Follows resolver (m >>= f) (ns ++ later) b := by
  intro asked
  have here := first asked
  simp only [ExceptT.run_bind, StateT.run_bind, Id.run_bind] at here ⊢
  rw [here, List.findSome?_append]
  cases refusal : ns.findSome? (Node.refusal? resolver) with
  | some err =>
    rw [reached_append_of_refused refusal]
    rfl
  | none =>
    have there := second ((ns.flatMap (Node.asks resolver)).reverse ++ asked)
    rw [reached_append_of_fine refusal, reached_of_fine refusal, List.flatMap_append,
      List.reverse_append, List.append_assoc, Option.none_or]
    exact there

theorem map {m : Asking α} {a : α} (first : Follows resolver m ns a) (f : α → β) :
    Follows resolver (do return f (← m)) ns (f a) := by
  have last : Follows resolver (Pure.pure (f a)) [] (f a) := .pure _
  have whole := first.bind (f := fun a => Pure.pure (f a)) last
  rwa [List.append_nil] at whole

/-- A node without a name that is not refused makes no difference. -/
theorem past {m : Asking α} {a : α} (fine : n.refusal? resolver = none) (silent : n.name? = none)
    (rest : Follows resolver m ns a) : Follows resolver m (n :: ns) a := by
  intro asked
  have quiet : n.asks resolver = [] := by simp [Node.asks, silent]
  rw [rest asked, List.findSome?_cons, fine, reached, fine, if_neg (by simp), List.flatMap_cons,
    quiet, List.nil_append]

/-- A node without a name that is refused ends the conversion. -/
theorem refused (refusal : n.refusal? resolver = some err) (silent : n.name? = none)
    (ns : List Node) (a : α) : Follows resolver (throw err : Asking α) (n :: ns) a := by
  intro asked
  have quiet : n.asks resolver = [] := by simp [Node.asks, silent]
  rw [List.findSome?_cons, refusal, reached, refusal, if_pos (by simp), List.flatMap_cons, quiet]
  rfl

end Follows

/-! ### Shorthands -/

/-- A name is asked for, if there is anyone to ask, and what is found is the answer. -/
theorem follows_named {t : String} (unknown : nameIn t ∉ scalarTypes) :
    Follows resolver (named resolver (nameIn t)) [.value (.str t)] (found resolver (nameIn t)) := by
  intro asked
  have hasName : Node.name? (.value (.str t)) = some (nameIn t) := if_neg unknown
  cases resolver with
  | none =>
    have refusal : Node.refusal? none (.value (.str t)) = some (.unsupportedType (nameIn t)) :=
      if_neg unknown
    rw [List.findSome?_cons, refusal, reached, refusal]
    rfl
  | some resolve =>
    have asks : (reached (some resolve) [.value (.str t)]).flatMap (Node.asks (some resolve)) =
        [nameIn t] := by
      simp [reached, Node.asks, hasName]
    rw [asks, List.findSome?_cons]
    simp only [Node.refusal?, if_neg unknown, named]
    cases answer : resolve (nameIn t) with
    | found s =>
      have known : found (some resolve) (nameIn t) = s := by
        simp [found, answer, Lookup.found?]
      rw [known]
      rfl
    | missing => rfl
    | failed cause => rfl

/-- A text is the schema of its type, or the one that is found, with the description in the text. -/
theorem follows_text (t : String) : Follows resolver (expand resolver (.str t))
    [.value (.str t)] (spliced (found resolver) (.str t)) := by
  rw [expand_text, spliced]
  refine Follows.map ?_ (describe (noteIn t))
  by_cases known : nameIn t ∈ scalarTypes
  · rw [if_pos (List.contains_iff_mem.mpr known), if_pos known]
    exact .past (if_pos known) (if_pos known) (.pure _)
  · rw [if_neg fun mem => known (List.contains_iff_mem.mp mem), if_neg known]
    exact follows_named known

theorem nests_of_form {k : String} {form : Form} (here : (FieldKey.ofText k).form = form)
    (other : form ≠ .enumeration) : nests k = true := by
  simp [nests_eq, here, other]

/-- The value of a field is a shorthand, unless values are enumerated. -/
theorem follows_property {k : String} {v : Json} (field : k ≠ wildcard)
    (value : Follows resolver (expand resolver v) (nodes v) (spliced (found resolver) v)) :
    Follows resolver (property resolver k v) (.field k v :: if nests k then nodes v else [])
      (fieldSchema k v (spliced (found resolver) v)) := by
  unfold property fieldSchema
  cases form : (FieldKey.ofText k).form with
  | array =>
    rw [nests_of_form form nofun, if_pos rfl]
    exact .past (by simp [Node.refusal?, form]) rfl (value.map _)
  | plain | object =>
    rw [nests_of_form form nofun, if_pos rfl]
    exact .past (by simp [Node.refusal?, form]) rfl value
  | unknown word => exact .refused (by simp [Node.refusal?, form, field]) rfl _ _
  | enumeration =>
    have inner : nests k = false := by simp [nests_eq, form, field]
    rw [inner, if_neg Bool.false_ne_true]
    cases v with
    | arr members => exact .past (by simp [Node.refusal?, form]) rfl (.pure _)
    | _ => exact .refused (by simp [Node.refusal?, form, field]) rfl _ _

/-- Fields are read one behind the other. -/
theorem follows_fields {fs : Fields} (values : ∀ f ∈ fs,
      Follows resolver (expand resolver f.2) (nodes f.2) (spliced (found resolver) f.2))
    (d : ObjectDraft) : Follows resolver (expandFields resolver d fs) (nodesIn fs)
      (splicedIn (found resolver) d fs) := by
  induction fs generalizing d with
  | nil =>
    rw [expandFields]
    exact .pure d
  | cons f rest ih =>
    obtain ⟨k, v⟩ := f
    have value := values (k, v) List.mem_cons_self
    have later := ih fun f mem => values f (List.mem_cons_of_mem (k, v) mem)
    rw [nodesIn, splicedIn]
    by_cases field : k = wildcard
    · subst field
      -- the key for all other fields has no form that is known
      have form : (FieldKey.ofText wildcard).form = .unknown "*" := by decide
      have fine : Node.refusal? resolver (.field wildcard v) = none := by simp [Node.refusal?]
      rw [expandFields_wildcard, fieldSchema, form, show nests wildcard = true by decide,
        if_pos rfl]
      exact (Follows.past fine rfl value).bind (later _)
    · rw [expandFields_field resolver field, ObjectDraft.put, if_neg field]
      exact (follows_property field value).bind (later _)

/-- A conversion follows the nodes of its shorthand, and puts in what is found for the names in
them. -/
theorem follows_expand (v : Json) :
    Follows resolver (expand resolver v) (nodes v) (spliced (found resolver) v) := by
  match v with
  | .str t =>
    rw [nodes]
    · exact follows_text t
    · exact nofun
  | .obj fs =>
    rw [expand, nodes, spliced]
    exact .past rfl rfl ((follows_fields (fun f mem => follows_expand f.2) {}).map _)
  | .null | .bool _ | .num _ | .arr _ => exact .refused rfl rfl _ _
termination_by sizeOf v
decreasing_by exact sizeOf_field_lt mem

/-- What a conversion answers, and what it asks for. -/
theorem result_expand (v : Json) : (expand resolver v).result =
    (match (nodes v).findSome? (Node.refusal? resolver) with
      | some err => .error err
      | none => .ok (spliced (found resolver) v),
      (reached resolver (nodes v)).flatMap (Node.asks resolver)) := by
  have whole := @follows_expand resolver v []
  rw [List.append_nil] at whole
  rw [Asking.result, show StateT.run (ExceptT.run (expand resolver v)) [] = _ from whole]
  simp only [List.reverse_reverse]

/-- All shorthands within one that is expanded are expanded. -/
theorem expand_within {v w schema : Json} (read : (expand resolver v).result.1 = .ok schema)
    (mem : .value w ∈ nodes v) :
    (expand resolver w).result.1 = .ok (spliced (found resolver) w) := by
  rw [result_expand] at read ⊢
  cases refusal : (nodes v).findSome? (Node.refusal? resolver) with
  | some err =>
    rw [refusal] at read
    cases read
  | none =>
    have fine := List.findSome?_eq_none_iff.mp refusal
    rw [List.findSome?_eq_none_iff.mpr fun n here => fine n (nodes_subset mem here)]

end Promptry.Schema
