import Promptry.Engine.Rendering
import Promptry.Proofs.Engine.Walk

/-!
What can be done with an engine, one action after the other, and what stays as it is: partials are
looked for in the same places, and what is registered stays registered. Main statements:
`grows_after` and `supplied_after`, that only what the sources have is registered on the way.
-/

namespace Promptry.Engine

/-- What can be done with an engine and may change it. Parsing, resolving metadata and rendering
what was compiled leave it as it is. -/
inductive Action where
  | defineHelper (name : String) (helper : Template.Helper)
  | definePartial (name source : String)
  | defineTool (tool : ToolDefinition)
  | defineSchema (name : String) (schema : Json)
  | resolvePartials (template : String)
  | compile (source : String)
  | load (name : String) (options : LoadOptions)
  | render (source : String) (data : RenderData) (overrides : Option Metadata)

/-- The engine behind an action, whether that succeeds or not. -/
def perform (e : Engine) : Action → Engine
  | .defineHelper name helper => e.defineHelper name helper
  | .definePartial name source =>
    match e.definePartial name source with
    | .ok e => e
    | .error _ => e
  | .defineTool tool => e.defineTool tool
  | .defineSchema name schema => e.defineSchema name schema
  | .resolvePartials template => (e.resolvePartials template).engine
  | .compile source => (e.compile source).engine
  | .load name options => (e.load name options).engine
  | .render source data overrides => (e.render source data overrides).engine

/-- The engine behind a run of actions. -/
def after (e : Engine) (actions : List Action) : Engine := actions.foldl perform e

/-- Whether an action defines a partial itself. -/
def Action.definesPartial : Action → Bool
  | .definePartial _ _ => true
  | _ => false

variable {e e' : Engine}

/-! ### One action -/

/-- A source is refused for itself, or its template is checked and its partials are resolved. -/
theorem compile_cases (e : Engine) (source : String) :
    (∃ err, e.compile source = ⟨.error err, e, []⟩ ∧ ∀ name, err ≠ .partialMissing name) ∨
      ∃ prompt, ParsedPrompt.ofSource source = .ok prompt ∧
        checkTemplate prompt.template = .ok () ∧
        e.compile source = ⟨(e.resolvePartials prompt.template).result.map fun _ => prompt,
          (e.resolvePartials prompt.template).engine,
          (e.resolvePartials prompt.template).calls⟩ := by
  rw [compile]
  cases ParsedPrompt.ofSource source with
  | error err =>
    refine .inl ⟨_, rfl, fun name same => ?_⟩
    cases same
  | ok prompt =>
    cases checked : checkTemplate prompt.template with
    | error err =>
      refine .inl ⟨err, by simp only [checked], ?_⟩
      rw [checkTemplate] at checked
      split at checked <;> cases checked
      intro name same
      cases same
    | ok _ => exact .inr ⟨prompt, rfl, checked, by simp only [checked]⟩

/-- What changes the library only by loading partials leaves this engine. -/
def LoadsPartials (e e' : Engine) : Prop :=
  e' = e ∨ ∃ template, e' = (e.resolvePartials template).engine

theorem loadsPartials_compile (e : Engine) (source : String) :
    LoadsPartials e (e.compile source).engine := by
  rcases e.compile_cases source with ⟨err, same, -⟩ | ⟨prompt, -, -, same⟩ <;> rw [same]
  · exact .inl rfl
  · exact .inr ⟨_, rfl⟩

theorem loadsPartials_load (e : Engine) (name : String) (options : LoadOptions) :
    LoadsPartials e (e.load name options).engine := by
  unfold load
  split
  · exact .inl rfl
  · exact loadsPartials_compile e _

theorem loadsPartials_render (e : Engine) (source : String) (data : RenderData)
    (overrides : Option Metadata) : LoadsPartials e (e.render source data overrides).engine := by
  have same : (e.render source data overrides).engine = (e.compile source).engine := by
    unfold render
    simp only
    split <;> rfl
  rw [same]
  exact loadsPartials_compile e source

/-- What an action keeps of an engine. -/
structure Grows (e e' : Engine) : Prop where
  sources : SameSources e e'
  keeps : ∀ name, e.hasPartial name = true → e'.hasPartial name = true

theorem Grows.refl (e : Engine) : Grows e e := ⟨.refl e, fun _ registered => registered⟩

theorem Grows.trans {e₁ e₂ e₃ : Engine} (first : Grows e₁ e₂) (second : Grows e₂ e₃) :
    Grows e₁ e₃ :=
  ⟨first.sources.trans second.sources, fun name registered =>
    second.keeps name (first.keeps name registered)⟩

theorem LoadsPartials.differInPartials (loads : LoadsPartials e e') : DifferInPartials e e' := by
  rcases loads with rfl | ⟨template, rfl⟩
  · exact .refl e'
  · obtain ⟨asked, walk, -⟩ := e.resolvePartials_walk template
    exact walk.differInPartials

theorem LoadsPartials.grows (loads : LoadsPartials e e') : Grows e e' := by
  rcases loads with rfl | ⟨template, rfl⟩
  · exact .refl e'
  · obtain ⟨asked, walk, -⟩ := e.resolvePartials_walk template
    exact ⟨walk.sameSources, fun _ registered => walk.keeps registered⟩

/-- Loading registers only what the sources supply. -/
theorem LoadsPartials.supplied (loads : LoadsPartials e e') {name : String}
    (registered : e'.hasPartial name = true) :
    e.hasPartial name = true ∨ (e.partialSource? name).isSome := by
  rcases loads with rfl | ⟨template, rfl⟩
  · exact .inl registered
  · obtain ⟨asked, walk, -⟩ := e.resolvePartials_walk template
    exact (walk.hasPartial registered).imp_right And.right

theorem grows_perform (e : Engine) (action : Action) : Grows e (e.perform action) := by
  cases action with
  | defineHelper | defineTool | defineSchema =>
    exact ⟨⟨rfl, rfl, rfl⟩, fun _ registered => registered⟩
  | definePartial name source =>
    rw [perform]
    cases defined : e.definePartial name source with
    | error err => exact .refl e
    | ok e' =>
      exact ⟨sameSources_of_definePartial defined, fun other registered =>
        (hasPartial_of_definePartial defined other).mpr (.inr registered)⟩
  | resolvePartials template => exact LoadsPartials.grows (.inr ⟨template, rfl⟩)
  | compile source => exact (loadsPartials_compile e source).grows
  | load name options => exact (loadsPartials_load e name options).grows
  | render source data overrides => exact (loadsPartials_render e source data overrides).grows

/-- An action that defines no partial itself registers only what the sources supply. -/
theorem supplied_perform {action : Action} (loadsOnly : action.definesPartial = false)
    {name : String} (registered : (e.perform action).hasPartial name = true) :
    e.hasPartial name = true ∨ (e.partialSource? name).isSome := by
  cases action with
  | defineHelper | defineTool | defineSchema => exact .inl registered
  | definePartial => cases loadsOnly
  | resolvePartials template => exact LoadsPartials.supplied (.inr ⟨template, rfl⟩) registered
  | compile source => exact (loadsPartials_compile e source).supplied registered
  | load name options => exact (loadsPartials_load e name options).supplied registered
  | render source data overrides =>
    exact (loadsPartials_render e source data overrides).supplied registered

/-! ### Runs -/

theorem after_cons (e : Engine) (action : Action) (actions : List Action) :
    e.after (action :: actions) = (e.perform action).after actions := rfl

theorem grows_after (e : Engine) (actions : List Action) : Grows e (e.after actions) := by
  induction actions generalizing e with
  | nil => exact .refl e
  | cons action actions ih => exact (grows_perform e action).trans (ih (e.perform action))

/-- A run that defines no partial itself registers only what the sources supply. -/
theorem supplied_after {actions : List Action}
    (loadOnly : ∀ action ∈ actions, action.definesPartial = false) {name : String}
    (registered : (e.after actions).hasPartial name = true) :
    e.hasPartial name = true ∨ (e.partialSource? name).isSome := by
  induction actions generalizing e with
  | nil => exact .inl registered
  | cons action actions ih =>
    obtain ⟨first, rest⟩ := List.forall_mem_cons.mp loadOnly
    rw [after_cons] at registered
    have same := (grows_perform e action).sources.partialSource?
    rcases ih rest registered with here | here
    · exact supplied_perform first here
    · exact .inr (same ▸ here)

end Promptry.Engine
