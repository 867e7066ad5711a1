import Mathlib.Data.List.Nodup
import Promptry.Engine.Metadata
import Promptry.Proofs.Template.References

/-!
How the tools that a prompt declares come apart into definitions and names without one. The
definitions found stand behind those of the prompt, of each name the first; a name stays in the list
if nothing is found for it and nothing is defined under it. What follows when metadata is resolved
leaves the tools alone. Main statements: `partition_addTools`, `resolveTools_of_declared` and
`KeepsTools.andThen`.
-/

namespace Promptry

open Template.References

namespace Engine

variable {e : Engine}

/-! ### Adding definitions -/

theorem isDefined_iff {defs : List ToolDefinition} {name : String} :
    isDefined defs name = true ↔ name ∈ defs.map (·.name) := by
  simp [isDefined]

theorem isDefined_append_singleton (defs : List ToolDefinition) (t : ToolDefinition)
    (name : String) : isDefined (defs ++ [t]) name = (isDefined defs name || t.name == name) := by
  simp only [isDefined, List.any_append, List.any_cons, List.any_nil, Bool.or_false]

theorem addTools_cons (defs : List ToolDefinition) (t : ToolDefinition)
    (found : List ToolDefinition) :
    addTools defs (t :: found) =
      addTools (if isDefined defs t.name then defs else defs ++ [t]) found := rfl

/-- Of the definitions found, those are added whose names are new, of each name the first. -/
theorem addTools_eq (defs found : List ToolDefinition) :
    addTools defs found = defs ++ (found.filter fun t => t.name ∉ defs.map (·.name)).eraseDupsBy
      fun a b => a.name == b.name := by
  simp only [← isDefined_iff, decide_not, Bool.decide_eq_true]
  induction found generalizing defs with
  | nil => simp [addTools_nil, List.eraseDupsBy, List.eraseDupsBy.loop]
  | cons t found ih =>
    rw [addTools_cons]
    by_cases defined : isDefined defs t.name = true
    · rw [if_pos defined, ih, List.filter_cons_of_neg (by simpa using defined)]
    · have same : (fun u : ToolDefinition => !isDefined (defs ++ [t]) u.name) =
          fun u => decide ((u.name == t.name) = false) && !isDefined defs u.name := by
        funext u
        rw [isDefined_append_singleton, Bool.not_or, Bool.and_comm, Bool.decide_eq_false,
          Bool.beq_comm]
      rw [if_neg defined, ih, List.filter_cons_of_pos (by simpa using defined),
        List.eraseDupsBy_cons, List.filter_filter, same, List.append_assoc, List.singleton_append]

/-- The names that are defined once definitions are added. -/
theorem mem_names_addTools {defs found : List ToolDefinition} {name : String} :
    name ∈ (addTools defs found).map (·.name) ↔
      name ∈ defs.map (·.name) ∨ name ∈ found.map (·.name) := by
  induction found generalizing defs with
  | nil => simp [addTools_nil]
  | cons t found ih =>
    rw [addTools_cons, ih]
    by_cases defined : isDefined defs t.name = true
    · rw [if_pos defined, List.map_cons, List.mem_cons]
      constructor
      · rintro (old | new)
        · exact .inl old
        · exact .inr (.inr new)
      · rintro (old | rfl | new)
        · exact .inl old
        · exact .inl (isDefined_iff.mp defined)
        · exact .inr new
    · rw [if_neg defined]
      simp [or_assoc]

/-- Adding definitions defines no name twice. -/
theorem nodup_names_addTools {defs : List ToolDefinition} (nodup : (defs.map (·.name)).Nodup)
    (found : List ToolDefinition) : ((addTools defs found).map (·.name)).Nodup := by
  induction found generalizing defs with
  | nil => exact nodup
  | cons t found ih =>
    rw [addTools_cons]
    by_cases defined : isDefined defs t.name = true
    · rw [if_pos defined]
      exact ih nodup
    · rw [if_neg defined]
      apply ih
      rw [List.map_append, List.map_singleton, ← List.concat_eq_append, List.nodup_concat]
      exact ⟨fun mem => defined (isDefined_iff.mpr mem), nodup⟩

/-! ### The two lists -/

/-- The definition that is found for a name: the one that is registered, or else what the resolver
answers. A resolver that fails finds nothing. -/
inductive FindsTool (e : Engine) (name : String) (t : ToolDefinition) : Prop where
  | registered : Table.get? e.tools name = some t → FindsTool e name t
  | resolved {resolve : Resolver ToolDefinition} : Table.get? e.tools name = none →
      e.toolResolver = some resolve → resolve name = .found t → FindsTool e name t

/-- Nothing is found for a name. -/
def LacksTool (e : Engine) (name : String) : Prop := ∀ t, ¬ e.FindsTool name t

/-- The definitions found for some names, in the order of these. -/
inductive FoundFor (e : Engine) : List String → List ToolDefinition → Prop where
  | nil : FoundFor e [] []
  | found {name : String} {names : List String} {t : ToolDefinition} {ts : List ToolDefinition} :
      e.FindsTool name t → FoundFor e names ts → FoundFor e (name :: names) (t :: ts)
  | lacking {name : String} {names : List String} {ts : List ToolDefinition} :
      e.LacksTool name → FoundFor e names ts → FoundFor e (name :: names) ts

theorem tool?_eq_some_iff {name : String} {t : ToolDefinition} :
    e.tool? name = some t ↔ e.FindsTool name t := by
  unfold tool?
  constructor
  · intro found
    cases registered : Table.get? e.tools name with
    | some u =>
      rw [registered] at found
      cases found
      exact .registered registered
    | none =>
      rw [registered] at found
      obtain ⟨resolve, isResolver, answer⟩ := Option.bind_eq_some_iff.mp found
      cases here : resolve name with
      | found u =>
        rw [here] at answer
        cases answer
        exact .resolved registered isResolver here
      | missing | failed cause =>
        rw [here] at answer
        cases answer
  · intro found
    cases found with
    | registered here => rw [here]
    | resolved none isResolver answer => simp [none, isResolver, answer, Lookup.found?]

theorem tool?_eq_none_iff {name : String} : e.tool? name = none ↔ e.LacksTool name := by
  rw [Option.eq_none_iff_forall_not_mem]
  exact forall_congr' fun t => not_congr tool?_eq_some_iff

instance (e : Engine) (name : String) : Decidable (e.LacksTool name) :=
  decidable_of_iff ((e.tool? name).isNone = true) (by
    rw [Option.isNone_iff_eq_none, tool?_eq_none_iff])

/-- For a name there is at most one definition. -/
theorem FindsTool.eq_iff {name : String} {t u : ToolDefinition} (here : e.FindsTool name t) :
    e.FindsTool name u ↔ u = t := by
  rw [← tool?_eq_some_iff, tool?_eq_some_iff.mpr here, Option.some_inj, eq_comm]

theorem foundFor_filterMap (e : Engine) (names : List String) :
    e.FoundFor names (names.filterMap e.tool?) := by
  induction names with
  | nil => exact .nil
  | cons name names ih =>
    cases here : e.tool? name with
    | none =>
      rw [List.filterMap_cons_none here]
      exact .lacking (tool?_eq_none_iff.mp here) ih
    | some t =>
      rw [List.filterMap_cons_some here]
      exact .found (tool?_eq_some_iff.mp here) ih

theorem FoundFor.mem_iff {names : List String} {found : List ToolDefinition}
    (foundFor : e.FoundFor names found) {t : ToolDefinition} :
    t ∈ found ↔ ∃ asked ∈ names, e.FindsTool asked t := by
  induction foundFor with
  | nil => simp
  | @found name names u found here rest ih =>
    rw [List.mem_cons, List.exists_mem_cons_iff, ih, here.eq_iff]
  | lacking lacks rest ih =>
    rw [List.exists_mem_cons_iff, ih, or_iff_right (lacks t)]

/-- The names of what is found are those that the definitions carry. -/
theorem FoundFor.mem_names_iff {names : List String} {found : List ToolDefinition}
    (foundFor : e.FoundFor names found) {name : String} :
    name ∈ found.map (·.name) ↔ ∃ asked ∈ names, ∃ t, e.FindsTool asked t ∧ t.name = name := by
  rw [List.mem_map]
  constructor
  · rintro ⟨t, mem, same⟩
    obtain ⟨asked, declared, here⟩ := foundFor.mem_iff.mp mem
    exact ⟨asked, declared, t, here, same⟩
  · rintro ⟨asked, declared, t, here, same⟩
    exact ⟨t, foundFor.mem_iff.mpr ⟨asked, declared, here⟩, same⟩

/-- Every tool is registered under its own name, as `defineTool` does it. -/
def RegistersByName (e : Engine) : Prop :=
  ∀ name t, Table.get? e.tools name = some t → t.name = name

/-- The resolver has a definition only for the name that the definition carries. -/
def ResolvesByName (e : Engine) : Prop :=
  ∀ resolve name t, e.toolResolver = some resolve → resolve name = .found t → t.name = name

theorem FindsTool.name_eq {name : String} {t : ToolDefinition} (found : e.FindsTool name t)
    (registered : e.RegistersByName) (resolved : e.ResolvesByName) : t.name = name := by
  cases found with
  | registered here => exact registered name t here
  | resolved none isResolver answer => exact resolved _ name t isResolver answer

/-- How declared names of tools come apart, beside the definitions `inline` that the prompt has
itself: into definitions and names that are missing. -/
structure Partition (e : Engine) (names : List String) (inline defs : List ToolDefinition)
    (missing : List String) : Prop where
  /-- Behind the prompt's own definitions come those found for the distinct names, in order, but of
  each name only the first. -/
  defs_eq : ∃ found, e.FoundFor names.eraseDups found ∧
    defs = inline ++ (found.filter fun t => t.name ∉ inline.map (·.name)).eraseDupsBy
      fun a b => a.name == b.name
  /-- Those of the distinct names are missing for which nothing is found and which no definition
  has. -/
  missing_eq : missing = names.eraseDups.filter
    fun name => e.LacksTool name ∧ name ∉ defs.map (·.name)
  disjoint : ∀ name ∈ missing, name ∉ defs.map (·.name)
  missing_nodup : missing.Nodup
  defs_nodup : (inline.map (·.name)).Nodup → (defs.map (·.name)).Nodup
  /-- No name is lost, and none is made up. -/
  complete : e.RegistersByName → e.ResolvesByName → ∀ name,
    name ∈ missing ∨ name ∈ defs.map (·.name) ↔ name ∈ names ∨ name ∈ inline.map (·.name)

/-- The names without a definition. -/
def missingTools (e : Engine) (names : List String) (defs : List ToolDefinition) : List String :=
  (distinct [] names).filter fun name => (e.tool? name).isNone && !isDefined defs name

theorem missingTools_eq (names : List String) (defs : List ToolDefinition) :
    e.missingTools names defs =
      names.eraseDups.filter fun name => e.LacksTool name ∧ name ∉ defs.map (·.name) := by
  rw [missingTools, distinct_nil_eq_eraseDups]
  refine List.filter_congr fun name _ => ?_
  rw [Bool.eq_iff_iff, decide_eq_true_eq, Bool.and_eq_true, Option.isNone_iff_eq_none,
    tool?_eq_none_iff, Bool.not_eq_true', ← Bool.not_eq_true, isDefined_iff]

theorem mem_missingTools {names : List String} {defs : List ToolDefinition} {name : String} :
    name ∈ e.missingTools names defs ↔
      name ∈ names ∧ e.LacksTool name ∧ name ∉ defs.map (·.name) := by
  rw [missingTools_eq, List.mem_filter, List.mem_eraseDups, decide_eq_true_eq]

theorem partition_addTools (e : Engine) (names : List String) (inline : List ToolDefinition) :
    let defs := addTools inline ((distinct [] names).filterMap e.tool?)
    e.Partition names inline defs (e.missingTools names defs) where
  defs_eq := by
    refine ⟨_, e.foundFor_filterMap names.eraseDups, ?_⟩
    rw [addTools_eq, distinct_nil_eq_eraseDups]
  missing_eq := missingTools_eq names _
  disjoint _ missing := (mem_missingTools.mp missing).2.2
  missing_nodup := (distinct_nodup [] names).filter _
  defs_nodup nodup := nodup_names_addTools nodup _
  complete registered resolved name := by
    have found_iff : name ∈ ((distinct [] names).filterMap e.tool?).map (·.name) ↔
        name ∈ names ∧ ¬ e.LacksTool name := by
      rw [(e.foundFor_filterMap _).mem_names_iff, LacksTool, not_forall_not]
      simp only [distinct_nil_eq_eraseDups, List.mem_eraseDups]
      constructor
      · rintro ⟨asked, declared, t, found, rfl⟩
        obtain rfl := found.name_eq registered resolved
        exact ⟨declared, t, found⟩
      · rintro ⟨declared, t, found⟩
        exact ⟨name, declared, t, found, found.name_eq registered resolved⟩
    rw [mem_missingTools, mem_names_addTools, found_iff]
    tauto

/-- A name is defined by the prompt itself, or by the answer to one of the names declared. -/
theorem Partition.mem_defs_iff {names missing : List String} {inline defs : List ToolDefinition}
    (partition : e.Partition names inline defs missing) {name : String} :
    name ∈ defs.map (·.name) ↔ name ∈ inline.map (·.name) ∨
      ∃ asked ∈ names, ∃ t, e.FindsTool asked t ∧ t.name = name := by
  obtain ⟨found, foundFor, rfl⟩ := partition.defs_eq
  rw [← addTools_eq, mem_names_addTools, foundFor.mem_names_iff]
  simp only [List.mem_eraseDups]

/-- A name that is in neither of the lists was answered under another one. -/
theorem Partition.exists_findsTool {names missing : List String} {inline defs : List ToolDefinition}
    (partition : e.Partition names inline defs missing) {name : String} (declared : name ∈ names)
    (present : name ∉ missing) (absent : name ∉ defs.map (·.name)) :
    ∃ t, e.FindsTool name t ∧ t.name ≠ name := by
  rw [partition.missing_eq, List.mem_filter, decide_eq_true_eq, List.mem_eraseDups] at present
  have found : ∃ t, e.FindsTool name t :=
    not_forall_not.mp fun lacks => present ⟨declared, lacks, absent⟩
  obtain ⟨t, here⟩ := found
  refine ⟨t, here, fun same => absent ?_⟩
  exact partition.mem_defs_iff.mpr (.inr ⟨name, declared, t, here, same⟩)

theorem unlessEmpty_eq {α : Type} (xs : List α) :
    unlessEmpty xs = if xs = [] then none else some xs := by
  cases xs <;> rfl

theorem getD_unlessEmpty {α : Type} (xs : List α) : (unlessEmpty xs).getD [] = xs := by
  cases xs <;> rfl

/-! ### Resolving -/

/-- The error of names that are missing: a strict engine names the first of them. -/
def refusal? (e : Engine) (missing : List String) : Option String :=
  if e.strict then missing.head? else none

theorem resolveTools_of_declared {m : Metadata} {names : List String} {defs : List ToolDefinition}
    (declared : m.tools = some names)
    (added : addTools (m.toolDefs.getD []) ((distinct [] names).filterMap e.tool?) = defs) :
    (e.resolveTools m).result = match e.refusal? (e.missingTools names defs) with
      | some name => .error (.toolMissing name)
      | none => .ok { m with
          toolDefs := unlessEmpty defs, tools := unlessEmpty (e.missingTools names defs) } := by
  simp only [resolveTools, declared, added, refusal?, missingTools]
  generalize List.filter _ (distinct [] names) = missing
  cases strict : e.strict with
  | false => rfl
  | true => cases missing <;> rfl

/-- The schemas of the input and the output resolve, as far as there are any. -/
def SchemasResolve (e : Engine) (m : Metadata) : Prop :=
  (∀ c, m.input = some c → ∃ s, (e.resolveSchema c.schema).result = .ok s) ∧
    ∀ c, m.output = some c → ∃ s, (e.resolveSchema c.schema).result = .ok s

theorem result_andThen {α β : Type} (x : Logged α) (f : α → Logged β) :
    (x.andThen f).result = x.result.bind fun v => (f v).result := by
  rw [Logged.andThen]
  cases x.result <;> rfl

theorem calls_andThen {α β : Type} {x : Logged α} {f : α → Logged β} {c : Call}
    (asked : c ∈ (x.andThen f).calls) :
    c ∈ x.calls ∨ ∃ v, x.result = .ok v ∧ c ∈ (f v).calls := by
  rw [Logged.andThen] at asked
  cases here : x.result with
  | error err =>
    rw [here] at asked
    exact .inl asked
  | ok v =>
    rw [here] at asked
    rcases List.mem_append.mp asked with first | second
    · exact .inl first
    · exact .inr ⟨v, rfl, second⟩

/-- Schemas fail with errors of their own. -/
theorem resolveSchema_error {s : Option Json} {err : PromptError}
    (failed : (e.resolveSchema s).result = .error err) : ∃ cause, err = .schema cause := by
  cases s with
  | none => cases failed
  | some v =>
    simp only [resolveSchema] at failed
    generalize (Schema.ofShorthand e.schemaLookup v).result = asked at failed
    obtain ⟨answer, names⟩ := asked
    cases answer with
    | error cause =>
      cases failed
      exact ⟨cause, rfl⟩
    | ok w => cases failed

/-- For schemas no tool is asked for. -/
theorem resolveSchema_calls {s : Option Json} {name : String} :
    .tool name ∉ (e.resolveSchema s).calls := by
  cases s with
  | none => simp [resolveSchema, Logged.pure]
  | some v => simp [resolveSchema, schemaCalls]

/-- A stage behind that of the tools: it leaves them alone, and fails by schemas only. -/
structure KeepsTools (m : Metadata) (x : Logged Metadata) : Prop where
  lists : ∀ r, x.result = .ok r → r.tools = m.tools ∧ r.toolDefs = m.toolDefs
  error : ∀ err, x.result = .error err → ∃ cause, err = .schema cause
  calls : ∀ name, .tool name ∉ x.calls

theorem keepsTools_pure (m : Metadata) : KeepsTools m (.pure m) where
  lists r here := by cases here; exact ⟨rfl, rfl⟩
  error err here := by cases here
  calls name := List.not_mem_nil

theorem keepsTools_schema {m : Metadata} (s : Option Json) {f : Option Json → Metadata}
    (tools : ∀ s, (f s).tools = m.tools) (toolDefs : ∀ s, (f s).toolDefs = m.toolDefs) :
    KeepsTools m ((e.resolveSchema s).andThen fun s => .pure (f s)) where
  lists r here := by
    rw [result_andThen] at here
    cases schema : (e.resolveSchema s).result with
    | error err => rw [schema] at here; cases here
    | ok s => rw [schema] at here; cases here; exact ⟨tools s, toolDefs s⟩
  error err here := by
    rw [result_andThen] at here
    cases schema : (e.resolveSchema s).result with
    | error err => rw [schema] at here; cases here; exact resolveSchema_error schema
    | ok s => rw [schema] at here; cases here
  calls name asked := by
    rcases calls_andThen asked with here | ⟨s, -, here⟩
    · exact resolveSchema_calls here
    · exact List.not_mem_nil here

theorem KeepsTools.andThen {m : Metadata} {x : Logged Metadata} {f : Metadata → Logged Metadata}
    (first : KeepsTools m x) (second : ∀ r, KeepsTools r (f r)) : KeepsTools m (x.andThen f) where
  lists r here := by
    rw [result_andThen] at here
    cases middle : x.result with
    | error err => rw [middle] at here; cases here
    | ok r₁ =>
      rw [middle] at here
      obtain ⟨tools₁, toolDefs₁⟩ := first.lists r₁ middle
      obtain ⟨tools₂, toolDefs₂⟩ := (second r₁).lists r here
      exact ⟨tools₂.trans tools₁, toolDefs₂.trans toolDefs₁⟩
  error err here := by
    rw [result_andThen] at here
    cases middle : x.result with
    | error err => rw [middle] at here; cases here; exact first.error err middle
    | ok r₁ => rw [middle] at here; exact (second r₁).error err here
  calls name asked := by
    rcases calls_andThen asked with here | ⟨r₁, -, here⟩
    · exact first.calls name here
    · exact (second r₁).calls name here

theorem keepsTools_resolveInput (m : Metadata) : KeepsTools m (e.resolveInput m) := by
  unfold resolveInput
  split
  · exact keepsTools_pure m
  · exact keepsTools_schema _ (fun _ => rfl) fun _ => rfl

theorem keepsTools_resolveOutput (m : Metadata) : KeepsTools m (e.resolveOutput m) := by
  unfold resolveOutput
  split
  · exact keepsTools_pure m
  · exact keepsTools_schema _ (fun _ => rfl) fun _ => rfl

/-- The stages behind that of the tools. -/
theorem keepsTools_stages (m : Metadata) :
    KeepsTools m ((e.resolveInput m).andThen e.resolveOutput) :=
  (keepsTools_resolveInput m).andThen keepsTools_resolveOutput

/-- Metadata whose schemas resolve get through the stages behind that of the tools. -/
theorem exists_resolved {m : Metadata} (resolve : e.SchemasResolve m) :
    ∃ r, ((e.resolveInput m).andThen e.resolveOutput).result = .ok r := by
  have output : ∀ r : Metadata, r.output = m.output →
      ∃ r', (e.resolveOutput r).result = .ok r' := by
    intro r same
    cases here : m.output with
    | none => exact ⟨r, by simp [resolveOutput, same, here, Logged.pure]⟩
    | some c =>
      obtain ⟨s, schema⟩ := resolve.2 c here
      exact ⟨{ r with output := some { c with schema := s } },
        by simp [resolveOutput, same, here, result_andThen, schema, Except.bind, Logged.pure]⟩
  have input : ∃ r, (e.resolveInput m).result = .ok r ∧ r.output = m.output := by
    cases here : m.input with
    | none => exact ⟨m, by simp [resolveInput, here, Logged.pure]⟩
    | some c =>
      obtain ⟨s, schema⟩ := resolve.1 c here
      exact ⟨{ m with input := some { c with schema := s } },
        by simp [resolveInput, here, result_andThen, schema, Except.bind, Logged.pure], rfl⟩
  obtain ⟨r₁, first, same⟩ := input
  obtain ⟨r₂, second⟩ := output r₁ same
  exact ⟨r₂, by rw [result_andThen, first]; exact second⟩

theorem refusal?_eq_some_iff {missing : List String} {name : String} :
    e.refusal? missing = some name ↔ e.strict = true ∧ missing.head? = some name := by
  unfold refusal?
  cases e.strict <;> simp

theorem andThen_assoc {α β γ : Type} (x : Logged α) (f : α → Logged β) (g : β → Logged γ) :
    (x.andThen f).andThen g = x.andThen fun v => (f v).andThen g := by
  simp only [Logged.andThen]
  cases x.result with
  | error err => rfl
  | ok v => cases here : (f v).result <;> simp [List.append_assoc, here]

end Engine

end Promptry
