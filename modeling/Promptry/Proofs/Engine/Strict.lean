import Promptry.Proofs.Engine.Closure
import Promptry.Proofs.Engine.Compiling
import Promptry.Proofs.Engine.Resolving
import Promptry.Proofs.Template.Faults
import Promptry.Proofs.Template.Inclusion

/-!
What a strict engine that compiled a prompt vouches for: the partials that its template and those
that were loaded refer to are registered, and stay so, so that rendering never misses one of them.
The search for references does not know every way to include a partial, though, and what it misses
is missed when the prompt is rendered. Main statements: `renderPrompt_misses_no_partial` and
`missed_behind_blank`.
-/

namespace Promptry

theorem Table.get?_eq_lookup {α : Type} (t : Table α) (key : String) :
    t.get? key = t.lookup key := by
  induction t with
  | nil => rfl
  | cons entry t ih =>
    obtain ⟨k, v⟩ := entry
    by_cases same : k = key
    · simp [get?, same]
    · have other : (key == k) = false := by simpa using Ne.symm same
      rw [get?, if_neg same, ih, List.lookup_cons, other]

namespace Engine

open Template.References (ofTemplate)

variable {e : Engine}

/-! ### What compiling registers -/

/-- The template of a prompt that an engine compiles from a source, or the source of a partial that
it loads with it. -/
def TakesIn (e : Engine) (source : String) (prompt : ParsedPrompt) (text : String) : Prop :=
  text = prompt.template ∨ ∃ name, e.hasPartial name = false ∧
    (e.compile source).engine.hasPartial name = true ∧ e.partialSource? name = some text

theorem compile_eq_ok {source : String} {prompt : ParsedPrompt}
    (compiled : (e.compile source).result = .ok prompt) :
    (e.resolvePartials prompt.template).result = .ok () ∧
      (e.compile source).engine = (e.resolvePartials prompt.template).engine := by
  rcases e.compile_cases source with ⟨err, same, -⟩ | ⟨prompt', -, -, same⟩
  · rw [same] at compiled
    cases compiled
  · rw [same] at compiled ⊢
    cases resolved : (e.resolvePartials prompt'.template).result with
    | error err =>
      rw [resolved] at compiled
      cases compiled
    | ok _ =>
      rw [resolved] at compiled
      cases compiled
      exact ⟨resolved, rfl⟩

/-- All references of what a strict engine takes in are registered. -/
theorem hasPartial_of_compile (strict : e.strict = true) {source text name : String}
    {prompt : ParsedPrompt} (compiled : (e.compile source).result = .ok prompt)
    (takes : e.TakesIn source prompt text) (refers : name ∈ ofTemplate text) :
    (e.compile source).engine.hasPartial name = true := by
  obtain ⟨ok, same⟩ := compile_eq_ok compiled
  obtain ⟨asked, walk, -⟩ := e.resolvePartials_walk prompt.template
  have reach : Reach e (ofTemplate prompt.template) name := by
    rcases takes with rfl | ⟨loaded, unregistered, registered, supplied⟩
    · exact .start refers
    · rw [same] at registered
      rcases walk.hasPartial registered with before | ⟨reach, -⟩
      · rw [unregistered] at before
        cases before
      · exact reach.through unregistered supplied refers
  rw [same]
  rcases walk.settles ok (by simp) reach with registered | ⟨lenient, -⟩
  · exact registered
  · rw [walk.sameSources.strict, strict] at lenient
    cases lenient

/-! ### Rendering -/

/-- Metadata is never the fault of a template. -/
theorem resolveMetadata_ne_render (base : Metadata) (overrides : Option Metadata)
    (cause : Template.RenderError) :
    (e.resolveMetadata base overrides).result ≠ .error (.render cause) := by
  intro failed
  rw [resolveMetadata, andThen_assoc, result_andThen] at failed
  cases tools : (e.resolveTools (e.layered base overrides)).result with
  | ok m =>
    rw [tools] at failed
    obtain ⟨cause', other⟩ := (keepsTools_stages m).error _ failed
    cases other
  | error err =>
    rw [tools] at failed
    cases failed
    cases declared : (e.layered base overrides).tools with
    | none =>
      rw [resolveTools_of_none declared] at tools
      cases tools
    | some names =>
      rw [resolveTools_of_declared declared rfl] at tools
      split at tools <;> cases tools

/-- An engine reports a partial as missing only if it is not registered. -/
theorem renderPrompt_of_registered (honest : Template.HonestLibrary e.library) {name : String}
    (registered : e.hasPartial name = true) (prompt : ParsedPrompt) (data : RenderData)
    (overrides : Option Metadata) :
    (e.renderPrompt prompt data overrides).result ≠ .error (.render (.partialNotFound name)) := by
  intro failed
  rw [renderPrompt, result_andThen] at failed
  cases resolved : (e.resolveMetadata prompt.metadata overrides).result with
  | error err =>
    rw [resolved] at failed
    cases failed
    exact resolveMetadata_ne_render _ _ _ resolved
  | ok metadata =>
    rw [resolved] at failed
    cases rendered : Template.renderSource e.library
        (Template.DataVariables.redirectAll prompt.template)
        (.obj (contextRoot metadata data)) with
    | ok text => simp [Except.bind, renderTemplate, rendered, Except.mapError, Except.map] at failed
    | error err =>
      simp only [Except.bind, renderTemplate, rendered, Except.mapError, Except.map,
        Except.error.injEq, PromptError.render.injEq] at failed
      have missing := Template.honest_renderSource honest _ _ err rendered
      rw [failed] at missing
      rw [hasPartial, Table.contains, Table.get?_eq_lookup, missing] at registered
      cases registered

/-- After a strict engine compiled a prompt, and whatever was done since, rendering never misses a
partial that is included plainly in the template or in a partial that was loaded with it. -/
theorem renderPrompt_misses_no_partial (strict : e.strict = true) {source text name : String}
    {prompt : ParsedPrompt} (compiled : (e.compile source).result = .ok prompt)
    (takes : e.TakesIn source prompt text)
    (includes : Template.IncludesPlainly text.toList name) {later : List Action}
    (honest : Template.HonestLibrary ((e.compile source).engine.after later).library)
    (data : RenderData) (overrides : Option Metadata) :
    (((e.compile source).engine.after later).renderPrompt prompt data overrides).result ≠
      .error (.render (.partialNotFound name)) := by
  have registered := hasPartial_of_compile strict compiled takes includes.mem_ofTemplate
  exact renderPrompt_of_registered honest ((grows_after _ later).keeps name registered) prompt data
    overrides

theorem compile_chained : (chained.compile "\x7b\x7b> outer\x7d\x7d").result =
    .ok ⟨{}, "\x7b\x7b> outer\x7d\x7d"⟩ := by
  have read : ParsedPrompt.ofSource "\x7b\x7b> outer\x7d\x7d" =
    .ok ⟨{}, "\x7b\x7b> outer\x7d\x7d"⟩ := rfl
  rw [compile_read read (checkTemplate_of_isOk (by decide +kernel)), resolvePartials_chained]
  rfl

/-- The partial that a loaded one includes is there when the prompt is rendered. -/
theorem renderPrompt_chained :
    (chained.compile "\x7b\x7b> outer\x7d\x7d").result =
        .ok ⟨{}, "\x7b\x7b> outer\x7d\x7d"⟩ ∧
      (((chained.compile "\x7b\x7b> outer\x7d\x7d").engine.after
        [.defineHelper "shout" Template.Helper.shout]).renderPrompt
          ⟨{}, "\x7b\x7b> outer\x7d\x7d"⟩ {} none).result ≠
        .error (.render (.partialNotFound "inner")) := by
  have outer : (chained.compile "\x7b\x7b> outer\x7d\x7d").engine.hasPartial "outer" = true :=
    hasPartial_of_compile rfl compile_chained (.inl rfl) (by rw [refers_outer]; decide)
  have takes : chained.TakesIn "\x7b\x7b> outer\x7d\x7d" ⟨{}, "\x7b\x7b> outer\x7d\x7d"⟩
      "\x7b\x7b> inner\x7d\x7d" := .inr ⟨"outer", rfl, outer, rfl⟩
  have includes : Template.IncludesPlainly "\x7b\x7b> inner\x7d\x7d".toList "inner" :=
    ⟨by decide, [], by decide, " inner\x7d\x7d".toList, by decide, by decide +kernel⟩
  refine ⟨compile_chained,
    renderPrompt_misses_no_partial rfl compile_chained takes includes ?_ {} none⟩
  obtain ⟨partials, same⟩ :=
    (loadsPartials_compile chained "\x7b\x7b> outer\x7d\x7d").differInPartials
  rw [same]
  intro name helper known c
  change List.lookup name [("shout", Template.Helper.shout)] = some helper at known
  rw [List.lookup_cons] at known
  split at known
  · cases known
    exact .ok _
  · cases known

/-- A strict engine without anything. -/
def strictAlone : Engine := { strict := true }

/-- A blank before the `>` hides a partial from the search, but not from the template language: the
prompt compiles, and fails to render. -/
theorem missed_behind_blank :
    Template.includedAt? "\x7b\x7b > ghost\x7d\x7d".toList = some "ghost" ∧
      (strictAlone.compile "\x7b\x7b > ghost\x7d\x7d").result =
        .ok ⟨{}, "\x7b\x7b > ghost\x7d\x7d"⟩ ∧
      ((strictAlone.compile "\x7b\x7b > ghost\x7d\x7d").engine.renderPrompt
        ⟨{}, "\x7b\x7b > ghost\x7d\x7d"⟩ {} none).result =
        .error (.render (.partialNotFound "ghost")) := by
  have none_found : ofTemplate "\x7b\x7b > ghost\x7d\x7d" = [] := by decide
  have read : ParsedPrompt.ofSource "\x7b\x7b > ghost\x7d\x7d" =
    .ok ⟨{}, "\x7b\x7b > ghost\x7d\x7d"⟩ := rfl
  have compiled : (strictAlone.compile "\x7b\x7b > ghost\x7d\x7d").result =
      .ok ⟨{}, "\x7b\x7b > ghost\x7d\x7d"⟩ := by
    rw [compile_read read (checkTemplate_of_isOk (by decide +kernel)),
      resolvePartials_of_no_reference none_found]
    rfl
  refine ⟨by decide +kernel, compiled, ?_⟩
  rw [(compile_eq_ok compiled).2, resolvePartials_of_no_reference none_found]
  have rendered : Template.renderSource {}
      (Template.DataVariables.redirectAll "\x7b\x7b > ghost\x7d\x7d") (.obj (contextRoot {} {})) =
      .error (.partialNotFound "ghost") := by
    decide +kernel
  have resolved : strictAlone.resolveMetadata {} none = .pure {} := rfl
  rw [renderPrompt, result_andThen, resolved]
  simp only [Logged.pure, Except.bind, renderTemplate]
  rw [show strictAlone.library = {} from rfl, rendered]
  rfl

end Engine

end Promptry
