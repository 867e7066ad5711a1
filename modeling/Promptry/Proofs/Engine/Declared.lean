import Promptry.Proofs.Engine.Resolving

/-!
The declared tools of a prompt that a strict engine resolved. Every name was answered or is defined
by the prompt, but an answer is defined under the name that it carries, which need not be the name
that was asked for. Main statements: `resolveMetadata_defines_iff` and `resolveMetadata_loses_tool`.
-/

namespace Promptry.Engine

variable {e : Engine} {base r : Metadata} {overrides : Option Metadata} {names : List String}

/-- The names of the tools that metadata defines. -/
def definedTools (m : Metadata) : List String := (m.toolDefs.getD []).map (·.name)

/-- What a strict engine makes of the names `names` of tools that a prompt declares beside the
definitions `inline`. -/
structure Defines (e : Engine) (names : List String) (inline : List ToolDefinition) (r : Metadata) :
    Prop where
  none_left : r.tools = none
  /-- A name is defined if it is the prompt's own, or if the answer to one of the names has it. -/
  defined_iff : ∀ name, name ∈ definedTools r ↔ name ∈ inline.map (·.name) ∨
    ∃ asked ∈ names, ∃ t, e.FindsTool asked t ∧ t.name = name
  /-- A name that is lost was answered with a definition that carries another name. -/
  lost : ∀ name ∈ names, name ∉ definedTools r → ∃ t, e.FindsTool name t ∧ t.name ≠ name
  /-- If tools are registered under their own names, that answer is the resolver's. -/
  lost_by_resolver : e.RegistersByName → ∀ name ∈ names, name ∉ definedTools r →
    ∃ resolve t, e.toolResolver = some resolve ∧ resolve name = .found t ∧ t.name ≠ name
  /-- If the resolver keeps to the names that it is asked for, none is lost. -/
  kept : e.RegistersByName → e.ResolvesByName → ∀ name ∈ names, name ∈ definedTools r

/-- When a strict engine resolves the metadata of a prompt that declares tools, a declared name is
defined if and only if the prompt defines it itself or it is carried by the answer to one of the
declared names. -/
theorem resolveMetadata_defines_iff (strict : e.strict = true)
    (declared : (e.layered base overrides).tools = some names)
    (resolved : (e.resolveMetadata base overrides).result = .ok r) :
    e.Defines names ((e.layered base overrides).toolDefs.getD []) r := by
  obtain ⟨defs, missing, outcome⟩ := exists_toolsDeclared declared
  obtain ⟨toolDefs, tools⟩ := outcome.answer r resolved
  have defined : definedTools r = defs.map (·.name) := by
    rw [definedTools, toolDefs]
    split <;> simp_all
  -- the first name that is missing would have been refused
  have none_missing : missing = [] := by
    cases first : missing with
    | nil => rfl
    | cons name rest =>
      have refused := (outcome.refused name).mpr ⟨strict, by rw [first]; rfl⟩
      rw [resolved] at refused
      cases refused
  subst none_missing
  have lost : ∀ name ∈ names, name ∉ definedTools r →
      ∃ t, e.FindsTool name t ∧ t.name ≠ name := by
    intro name mem absent
    rw [defined] at absent
    exact outcome.partition.exists_findsTool mem List.not_mem_nil absent
  constructor
  case none_left => exact tools
  case defined_iff =>
    intro name
    rw [defined]
    exact outcome.partition.mem_defs_iff
  case lost => exact lost
  case lost_by_resolver =>
    intro registered name mem absent
    obtain ⟨t, found, other⟩ := lost name mem absent
    cases found with
    | registered here => exact absurd (registered name t here) other
    | resolved none isResolver answer => exact ⟨_, t, isResolver, answer, other⟩
  case kept =>
    intro registered answers name mem
    by_contra absent
    obtain ⟨t, found, other⟩ := lost name mem absent
    exact other (found.name_eq registered answers)

/-- A strict engine whose resolver knows a tool under two names. -/
def aliased : Engine where
  tools := [("calc", ⟨"calc", none, none, none⟩)]
  toolResolver := some fun name =>
    if name = "search" ∨ name = "find" then .found ⟨"find", none, none, none⟩ else .missing
  strict := true

/-- A registered tool, one of the prompt's own and one that is found are defined; so is one that
another name leads to. -/
theorem resolveMetadata_defines_iff_aliased :
    let m : Metadata := {
      tools := some ["calc", "search", "mine", "find"]
      toolDefs := some [⟨"mine", none, none, none⟩] }
    ∃ r, (aliased.resolveMetadata m none).result = .ok r ∧ r.tools = none ∧
      ∀ name ∈ ["calc", "mine", "find"], name ∈ definedTools r := by
  intro m
  have resolved : (aliased.resolveMetadata m none).result = .ok _ := rfl
  have defines := resolveMetadata_defines_iff rfl rfl resolved
  refine ⟨_, resolved, defines.none_left, ?_⟩
  intro name mem
  rw [defines.defined_iff]
  simp only [List.mem_cons, List.not_mem_nil, or_false] at mem
  rcases mem with rfl | rfl | rfl
  · exact .inr ⟨"calc", by simp, ⟨"calc", none, none, none⟩, .registered rfl, rfl⟩
  · exact .inl (by simp [layered, m])
  · exact .inr ⟨"find", by simp, ⟨"find", none, none, none⟩, .resolved rfl rfl rfl, rfl⟩

/-- A tool that is answered under another name is lost, also for a strict engine. -/
theorem resolveMetadata_loses_tool :
    let r : Metadata := { toolDefs := some [⟨"find", none, none, none⟩] }
    aliased.strict = true ∧
      (aliased.resolveMetadata { tools := some ["search"] } none).result = .ok r ∧
      "search" ∉ definedTools r :=
  ⟨rfl, rfl, by decide⟩

end Promptry.Engine
