import Promptry.Proofs.Engine.Walk

/-!
The partials that are registered once those of a template are resolved. References are followed
through the sources of the partials that are loaded on the way; partials that were registered
before, by the caller or by an earlier search, are taken as they are, and what they refer to is not
looked for. Main statements: `hasPartial_resolvePartials_iff` and `reference_behind_registered`.
-/

namespace Promptry.Engine

open Template.References (ofTemplate)

variable {e : Engine}

/-- Resolving the partials of a template registers exactly those that the template leads to, through
partials that were not registered, and that can be supplied. -/
theorem hasPartial_resolvePartials_iff {template : String}
    (ok : (e.resolvePartials template).result = .ok ()) (name : String) :
    (e.resolvePartials template).engine.hasPartial name = true ↔
      e.hasPartial name = true ∨
        Reach e (ofTemplate template) name ∧ (e.partialSource? name).isSome = true := by
  obtain ⟨asked, walk, -⟩ := e.resolvePartials_walk template
  refine ⟨walk.hasPartial, ?_⟩
  rintro (registered | ⟨reach, supplied⟩)
  · exact walk.keeps registered
  · rcases walk.settles ok (by simp) reach with registered | ⟨-, missing⟩
    · exact registered
    · rw [walk.sameSources.partialSource?] at missing
      rw [missing] at supplied
      cases supplied

/-- A strict engine for which two partials can be supplied, of which one refers to the other. -/
def chained : Engine :=
  { strict := true
    partialResolver := some [("outer", .found "\x7b\x7b> inner\x7d\x7d"), ("inner", .found "x")] }

theorem refers_outer : ofTemplate "\x7b\x7b> outer\x7d\x7d" = ["outer"] := by decide

theorem refers_inner : ofTemplate "\x7b\x7b> inner\x7d\x7d" = ["inner"] := by decide

theorem exists_definePartial_outer (e : Engine) :
    ∃ e', e.definePartial "outer" "\x7b\x7b> inner\x7d\x7d" = .ok e' :=
  exists_definePartial e "outer" _ (by decide +kernel)

theorem resolvePartials_chained :
    (chained.resolvePartials "\x7b\x7b> outer\x7d\x7d").result = .ok () := by
  obtain ⟨e₁, outer⟩ := exists_definePartial_outer chained
  obtain ⟨e₂, inner⟩ := exists_definePartial e₁ "inner" "x" (by decide +kernel)
  have unregistered : e₁.hasPartial "inner" = false := by
    rw [← Bool.not_eq_true, hasPartial_of_definePartial outer]
    decide
  have supplied : e₁.partialSource? "inner" = some "x" := by
    rw [(sameSources_of_definePartial outer).partialSource?]
    rfl
  rw [resolvePartials, refers_outer, show chained.supplyBound = 0 + 1 + 1 from rfl,
    search_loaded List.not_mem_nil rfl rfl outer, refers_inner, List.nil_append,
    search_loaded (by decide) unregistered supplied inner,
    show ofTemplate "x" = [] by decide, List.append_nil, search_nil]

/-- The partial that the template leads to through another one is registered. -/
theorem hasPartial_resolvePartials_chained :
    (chained.resolvePartials "\x7b\x7b> outer\x7d\x7d").result = .ok () ∧
      (chained.resolvePartials "\x7b\x7b> outer\x7d\x7d").engine.hasPartial "inner" = true := by
  refine ⟨resolvePartials_chained, ?_⟩
  refine (hasPartial_resolvePartials_iff resolvePartials_chained "inner").mpr (.inr ⟨?_, rfl⟩)
  have outer : Reach chained (ofTemplate "\x7b\x7b> outer\x7d\x7d") "outer" :=
    .start (by rw [refers_outer]; decide)
  exact outer.through rfl rfl (show "inner" ∈ ofTemplate "\x7b\x7b> inner\x7d\x7d" by decide)

/-- What a partial that the caller registered refers to is not looked for, even if it can be
supplied. -/
theorem reference_behind_registered :
    ∃ e, chained.definePartial "outer" "\x7b\x7b> inner\x7d\x7d" = .ok e ∧
      (e.resolvePartials "\x7b\x7b> outer\x7d\x7d").result = .ok () ∧
      "outer" ∈ ofTemplate "\x7b\x7b> outer\x7d\x7d" ∧
      "inner" ∈ ofTemplate "\x7b\x7b> inner\x7d\x7d" ∧
      e.partialSource? "inner" = some "x" ∧
      (e.resolvePartials "\x7b\x7b> outer\x7d\x7d").engine.hasPartial "inner" = false := by
  obtain ⟨e, defined⟩ := exists_definePartial_outer chained
  have registered := hasPartial_of_definePartial defined
  have passed : e.resolvePartials "\x7b\x7b> outer\x7d\x7d" = ⟨.ok (), e, []⟩ := by
    rw [resolvePartials, refers_outer, ← List.append_nil ["outer"],
      search_registered (by simp [registered]), search_nil]
  refine ⟨e, defined, ?_, by decide, by decide, ?_, ?_⟩
  · rw [passed]
  · rw [(sameSources_of_definePartial defined).partialSource?]
    rfl
  · rw [passed, ← Bool.not_eq_true, registered]
    decide

end Promptry.Engine
