import Mathlib.Data.List.TakeWhile
import Promptry.Proofs.Engine.Actions

/-!
Compiling a prompt again after a strict engine refused it for a partial that is missing. The
partials that the first attempt loaded stay registered, and what is registered is not looked into
again: so the refusal is repeated exactly if the template itself refers to the missing partial. Main
statements: `compile_again` and `second_attempt_compiles`.
-/

namespace Promptry.Engine

open Template.References (ofTemplate)

variable {e : Engine}

/-! ### Attempts -/

/-- Resolving fails at the first name that is missing, if those before it are registered. -/
theorem resolvePartials_registered {template : String} {name : String}
    (registered : ∀ n ∈ (ofTemplate template).takeWhile (· != name), e.hasPartial n = true)
    (unregistered : e.hasPartial name = false) (missing : e.partialSource? name = none)
    (strict : e.strict = true) :
    (e.resolvePartials template).result =
      if name ∈ ofTemplate template then .error (.partialMissing name) else .ok () := by
  rw [resolvePartials]
  by_cases refers : name ∈ ofTemplate template
  · obtain ⟨before, after, split, absent⟩ := List.eq_append_cons_of_mem refers
    have others : ∀ n ∈ before, (n != name) = true := fun n mem => by
      rw [bne_iff_ne]
      rintro rfl
      exact absent mem
    have front : (ofTemplate template).takeWhile (· != name) = before := by
      rw [split, List.takeWhile_append_of_pos others,
        List.takeWhile_cons_of_neg (by simp), List.append_nil]
    rw [if_pos refers, split, search_registered (front ▸ registered)]
    exact search_missing List.not_mem_nil unregistered missing strict
  · have others : ∀ n ∈ ofTemplate template, (n != name) = true := fun n mem => by
      rw [bne_iff_ne]
      rintro rfl
      exact refers mem
    rw [List.takeWhile_eq_self_iff.mpr others] at registered
    rw [if_neg refers, ← List.append_nil (ofTemplate template), search_registered registered,
      search_nil]

theorem checkTemplate_of_isOk {template : String} (ok : (checkTemplate template).isOk = true) :
    checkTemplate template = .ok () := by
  cases checked : checkTemplate template with
  | error err => rw [checked] at ok; cases ok
  | ok _ => rfl

/-- A template that was checked compiles as far as its partials resolve. -/
theorem compile_read {source : String} {prompt : ParsedPrompt}
    (read : ParsedPrompt.ofSource source = .ok prompt)
    (checked : checkTemplate prompt.template = .ok ()) :
    (e.compile source).result = (e.resolvePartials prompt.template).result.map fun _ => prompt := by
  simp only [compile, read, checked]

/-- An engine refuses a source for a missing partial when it resolves those of the template. -/
theorem resolvePartials_of_compile {source name : String} {prompt : ParsedPrompt}
    (read : ParsedPrompt.ofSource source = .ok prompt)
    (failed : (e.compile source).result = .error (.partialMissing name)) :
    checkTemplate prompt.template = .ok () ∧
      (e.compile source).engine = (e.resolvePartials prompt.template).engine ∧
      (e.resolvePartials prompt.template).result = .error (.partialMissing name) := by
  rcases e.compile_cases source with ⟨err, same, other⟩ | ⟨prompt', read', checked, same⟩
  · rw [same] at failed
    cases failed
    exact absurd rfl (other name)
  · cases read.symm.trans read'
    rw [same] at failed ⊢
    refine ⟨checked, rfl, ?_⟩
    cases resolved : (e.resolvePartials prompt.template).result with
    | error err =>
      rw [resolved] at failed
      cases failed
      rfl
    | ok _ =>
      rw [resolved] at failed
      cases failed

/-- After resolving failed at a name, all references before it are registered. So resolving again
fails at the name if it is among the references, and succeeds else. -/
theorem resolvePartials_again {template name : String} {e₂ : Engine}
    (refused : (e.resolvePartials template).result = .error (.partialMissing name))
    (grows : Grows (e.resolvePartials template).engine e₂)
    (unregistered : e₂.hasPartial name = false) :
    (e₂.resolvePartials template).result =
      if name ∈ ofTemplate template then .error (.partialMissing name) else .ok () := by
  obtain ⟨asked, walk, -⟩ := e.resolvePartials_walk template
  obtain ⟨-, missing, strict⟩ := walk.missing refused
  have sources := walk.sameSources.trans grows.sources
  refine resolvePartials_registered (fun n mem => ?_) unregistered
    (by rw [sources.partialSource?, missing]) (sources.strict.trans strict)
  exact grows.keeps n (walk.before_missing refused (by simp) n mem)

/-- What was missing stays unregistered as long as nobody defines it. -/
theorem unregistered_after {template name : String}
    (refused : (e.resolvePartials template).result = .error (.partialMissing name))
    {between : List Action} (loadOnly : ∀ action ∈ between, action.definesPartial = false) :
    ((e.resolvePartials template).engine.after between).hasPartial name = false := by
  obtain ⟨asked, walk, -⟩ := e.resolvePartials_walk template
  obtain ⟨unregistered, missing, -⟩ := walk.missing refused
  rw [← Bool.not_eq_true]
  intro registered
  rcases supplied_after loadOnly registered with here | here
  · rw [unregistered] at here
    cases here
  · rw [walk.sameSources.partialSource?, missing] at here
    cases here

/-- After an engine refused a source for a missing partial, and whatever was done since without
defining partials, it refuses the source again if the template itself refers to the partial, and
compiles it else. -/
theorem compile_again {source name : String} {prompt : ParsedPrompt}
    (read : ParsedPrompt.ofSource source = .ok prompt)
    (failed : (e.compile source).result = .error (.partialMissing name)) {between : List Action}
    (loadOnly : ∀ action ∈ between, action.definesPartial = false) :
    (((e.compile source).engine.after between).compile source).result =
      if name ∈ ofTemplate prompt.template then .error (.partialMissing name) else .ok prompt := by
  obtain ⟨checked, engine, refused⟩ := resolvePartials_of_compile read failed
  rw [engine, compile_read read checked, resolvePartials_again refused (grows_after _ between)
    (unregistered_after refused loadOnly)]
  split <;> rfl

/-- A strict engine for which one partial can be supplied, that refers to one that cannot. -/
def dangling : Engine :=
  { strict := true, partialResolver := some [("outer", .found "\x7b\x7b> ghost\x7d\x7d")] }

theorem resolvePartials_dangling {template : String} {others more : List String}
    (refers : ofTemplate template = "outer" :: others)
    (next : others ++ ["ghost"] = "ghost" :: more) :
    (dangling.resolvePartials template).result = .error (.partialMissing "ghost") := by
  have compiles : (Template.compile true (Template.DataVariables.redirectAll
      "\x7b\x7b> ghost\x7d\x7d")).isOk = true := by decide +kernel
  obtain ⟨e₁, defined⟩ := exists_definePartial dangling "outer" _ compiles
  have sources := sameSources_of_definePartial defined
  rw [resolvePartials, refers, show dangling.supplyBound = 0 + 1 from rfl,
    search_loaded List.not_mem_nil rfl rfl defined,
    show ofTemplate "\x7b\x7b> ghost\x7d\x7d" = ["ghost"] by decide, next]
  refine search_missing (by decide) ?_ (by rw [sources.partialSource?]; rfl) sources.strict
  rw [← Bool.not_eq_true, hasPartial_of_definePartial defined]
  decide

theorem compile_dangling {source : String} {prompt : ParsedPrompt} {others more : List String}
    (read : ParsedPrompt.ofSource source = .ok prompt)
    (ok : (checkTemplate prompt.template).isOk = true)
    (refers : ofTemplate prompt.template = "outer" :: others)
    (next : others ++ ["ghost"] = "ghost" :: more) :
    (dangling.compile source).result = .error (.partialMissing "ghost") := by
  rw [compile_read read (checkTemplate_of_isOk ok), resolvePartials_dangling refers next]
  rfl

/-- The template refers to the missing partial itself, so it is refused again. -/
theorem compile_again_twice_refused :
    (dangling.compile "\x7b\x7b> outer\x7d\x7d\x7b\x7b> ghost\x7d\x7d").result =
        .error (.partialMissing "ghost") ∧
      (((dangling.compile "\x7b\x7b> outer\x7d\x7d\x7b\x7b> ghost\x7d\x7d").engine.after
        [.defineTool ⟨"search", none, none, none⟩,
          .resolvePartials "\x7b\x7b> outer\x7d\x7d"]).compile
          "\x7b\x7b> outer\x7d\x7d\x7b\x7b> ghost\x7d\x7d").result =
        .error (.partialMissing "ghost") := by
  have read : ParsedPrompt.ofSource "\x7b\x7b> outer\x7d\x7d\x7b\x7b> ghost\x7d\x7d" =
    .ok ⟨{}, "\x7b\x7b> outer\x7d\x7d\x7b\x7b> ghost\x7d\x7d"⟩ := rfl
  have failed := compile_dangling read (by decide +kernel)
    (show ofTemplate _ = ["outer", "ghost"] by decide) rfl
  refine ⟨failed, ?_⟩
  rw [compile_again read failed (by decide), if_pos (by decide)]

/-- A second attempt may succeed where the first one is refused. -/
theorem second_attempt_compiles :
    (dangling.compile "\x7b\x7b> outer\x7d\x7d").result = .error (.partialMissing "ghost") ∧
      ((dangling.compile "\x7b\x7b> outer\x7d\x7d").engine.compile
        "\x7b\x7b> outer\x7d\x7d").result = .ok ⟨{}, "\x7b\x7b> outer\x7d\x7d"⟩ := by
  have read : ParsedPrompt.ofSource "\x7b\x7b> outer\x7d\x7d" =
    .ok ⟨{}, "\x7b\x7b> outer\x7d\x7d"⟩ := rfl
  have refers : ofTemplate "\x7b\x7b> outer\x7d\x7d" = ["outer"] := by decide
  have first := compile_dangling read (by decide +kernel) refers rfl
  refine ⟨first, ?_⟩
  obtain ⟨checked, engine, refused⟩ := resolvePartials_of_compile read first
  have still : (dangling.resolvePartials "\x7b\x7b> outer\x7d\x7d").engine.hasPartial "ghost" =
      false := by
    obtain ⟨asked, walk, -⟩ := dangling.resolvePartials_walk "\x7b\x7b> outer\x7d\x7d"
    exact (walk.missing refused).1
  rw [engine, compile_read read checked, resolvePartials_again refused (.refl _) still,
    if_neg (by decide)]
  rfl

end Promptry.Engine
