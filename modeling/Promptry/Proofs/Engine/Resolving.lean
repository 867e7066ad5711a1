import Promptry.Proofs.Engine.Actions
import Promptry.Proofs.Engine.Tools

/-!
The tools of a prompt, when its metadata is resolved by an engine that anything was done with
before. Tools are registered under their own names only, so that with a resolver that keeps to the
names it is asked for no name is lost. Main statement: `resolveMetadata_partitions`.
-/

namespace Promptry.Engine

variable {e e' : Engine}

/-! ### Tools under their names -/

theorem RegistersByName.defineTool (named : e.RegistersByName) (t : ToolDefinition) :
    (e.defineTool t).RegistersByName := by
  intro name u found
  by_cases same : name = t.name
  · subst same
    rw [tool?_defineTool] at found
    cases found
    rfl
  · refine named name u ?_
    rwa [Engine.defineTool, Table.get?_insert_of_ne same] at found

theorem RegistersByName.of_differInPartials (named : e.RegistersByName)
    (differ : DifferInPartials e e') : e'.RegistersByName := by
  obtain ⟨_, rfl⟩ := differ
  exact named

theorem RegistersByName.perform (named : e.RegistersByName) (action : Action) :
    (e.perform action).RegistersByName := by
  cases action with
  | defineHelper | defineSchema => exact named
  | definePartial name source =>
    rw [Engine.perform]
    cases defined : e.definePartial name source with
    | error err => exact named
    | ok e' => exact named.of_differInPartials (differInPartials_of_definePartial defined)
  | defineTool tool => exact named.defineTool tool
  | resolvePartials template =>
    exact named.of_differInPartials (LoadsPartials.differInPartials (.inr ⟨template, rfl⟩))
  | compile source =>
    exact named.of_differInPartials (loadsPartials_compile e source).differInPartials
  | load name options =>
    exact named.of_differInPartials (loadsPartials_load e name options).differInPartials
  | render source data overrides =>
    exact named.of_differInPartials (loadsPartials_render e source data overrides).differInPartials

/-- Tools stay registered under their own names. -/
theorem RegistersByName.after (named : e.RegistersByName) (actions : List Action) :
    (e.after actions).RegistersByName := by
  induction actions generalizing e with
  | nil => exact named
  | cons action actions ih => exact ih (named.perform action)

variable {base : Metadata} {overrides : Option Metadata}

/-- What becomes of the names of tools that a prompt declares. -/
structure ToolsDeclared (e : Engine) (base : Metadata) (overrides : Option Metadata)
    (names : List String) (defs : List ToolDefinition) (missing : List String) : Prop where
  partition : e.Partition names ((e.layered base overrides).toolDefs.getD []) defs missing
  /-- A strict engine refuses the first of the names that are missing. -/
  refused : ∀ name, (e.resolveMetadata base overrides).result = .error (.toolMissing name) ↔
    e.strict = true ∧ missing.head? = some name
  /-- Both lists are set, unless they are empty. -/
  answer : ∀ r, (e.resolveMetadata base overrides).result = .ok r →
    r.toolDefs = (if defs = [] then none else some defs) ∧
      r.tools = if missing = [] then none else some missing
  answers : e.strict = false ∨ missing = [] → e.SchemasResolve (e.layered base overrides) →
    ∃ r, (e.resolveMetadata base overrides).result = .ok r

theorem exists_toolsDeclared {names : List String}
    (declared : (e.layered base overrides).tools = some names) :
    ∃ defs missing, e.ToolsDeclared base overrides names defs missing := by
  have partition := partition_addTools e names ((e.layered base overrides).toolDefs.getD [])
  simp only at partition
  generalize added : addTools _ _ = defs at partition
  have first := resolveTools_of_declared declared added
  generalize e.missingTools names defs = missing at partition first
  have whole : (e.resolveMetadata base overrides).result =
      (e.resolveTools (e.layered base overrides)).result.bind fun m =>
        ((e.resolveInput m).andThen e.resolveOutput).result := by
    rw [resolveMetadata, andThen_assoc, result_andThen]
  rw [first] at whole
  refine ⟨defs, missing, ?_⟩
  cases refusal : e.refusal? missing with
  | some refused =>
    rw [refusal] at whole
    refine ⟨partition, fun name => ?_, fun r answer => ?_, fun free => ?_⟩
    · rw [whole, ← refusal?_eq_some_iff, refusal]
      simp [Except.bind]
    · rw [whole] at answer
      cases answer
    · rcases free with lenient | empty
      · simp [refusal?, lenient] at refusal
      · simp [refusal?, empty] at refusal
  | none =>
    rw [refusal] at whole
    refine ⟨partition, fun name => ?_, fun r answer => ?_, fun _ schemas => ?_⟩
    · rw [whole, ← refusal?_eq_some_iff, refusal]
      refine ⟨fun failed => ?_, fun refused => by cases refused⟩
      obtain ⟨cause, other⟩ := (keepsTools_stages _).error _ failed
      cases other
    · rw [whole] at answer
      obtain ⟨tools, toolDefs⟩ := (keepsTools_stages _).lists r answer
      rw [tools, toolDefs]
      exact ⟨unlessEmpty_eq defs, unlessEmpty_eq missing⟩
    · rw [whole]
      exact exists_resolved schemas

end Promptry.Engine
