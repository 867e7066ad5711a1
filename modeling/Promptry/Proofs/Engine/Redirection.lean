import Promptry.Proofs.Engine.Compiling
import Promptry.Proofs.Template.Alike.Compiled

/-!
The text that is rendered is not the one that was checked, since references are redirected in
between. It compiles all the same, unless a block of a partial is opened by a quoted name with an at
sign in it. Main statement: `compile_redirectAll`.
-/

namespace Promptry

open Engine Template Template.DataVariables

theorem compile_of_checkTemplate {t : String} (accepted : checkTemplate t = .ok ()) :
    ∃ els, Template.compile false t = .ok els := by
  rw [checkTemplate] at accepted
  cases compiles : Template.compile false t with
  | error err =>
    rw [compiles] at accepted
    cases accepted
  | ok els => exact ⟨els, rfl⟩

/-- A template that passes the check is rendered from the elements that its text with references
redirected compiles to, unless the ends of a block of a partial have got different names by that: a
quoted name with an at sign in it. -/
theorem compile_redirectAll {t : String} (accepted : checkTemplate t = .ok ()) :
    (∃ els, Template.compile false (redirectAll t) = .ok els ∧ ∀ lib root,
      renderTemplate lib t root =
        ((renderElements lib els root).map String.ofList).mapError .render) ∨
    ∃ name opened closing, Diverges (tagsOf t) name opened closing ∧
      Template.compile false (redirectAll t) = .error (.decoratorMismatch opened closing) ∧
      ∀ lib root, renderTemplate lib t root =
        .error (.render (.doesNotCompile (.decoratorMismatch opened closing))) := by
  obtain ⟨els, compiles⟩ := compile_of_checkTemplate accepted
  have redirected := compile_redirected compiles false
  cases compiled : Template.compile false (redirectAll t) with
  | ok els' =>
    refine .inl ⟨els', rfl, fun lib root => ?_⟩
    rw [renderTemplate, renderSource, compiled]
    rfl
  | error err =>
    rw [compiled] at redirected
    cases redirected with
    | @diverges name opened closing apart =>
      refine .inr ⟨name, opened, closing, apart, rfl, fun lib root => ?_⟩
      rw [renderTemplate, renderSource, compiled]
      rfl

/-- The template `{{#> 'card'}}{{@user.name}}{{/'card'}}`. -/
def cardTemplate : String :=
  "\x7b\x7b#> 'card'\x7d\x7d\x7b\x7b@user.name\x7d\x7d\x7b\x7b/'card'\x7d\x7d"

theorem compile_redirectAll_card :
    checkTemplate cardTemplate = .ok () ∧ redirectAll cardTemplate ≠ cardTemplate ∧
      ∃ els, Template.compile false (redirectAll cardTemplate) = .ok els ∧ ∀ lib root,
        renderTemplate lib cardTemplate root =
          ((renderElements lib els root).map String.ofList).mapError .render := by
  have accepted : checkTemplate cardTemplate = .ok () := checkTemplate_of_isOk (by decide +kernel)
  refine ⟨accepted, by decide +kernel, ?_⟩
  rcases compile_redirectAll accepted with compiles | ⟨name, opened, closing, -, failed, -⟩
  · exact compiles
  · have fine : (Template.compile false (redirectAll cardTemplate)).isOk = true := by decide +kernel
    rw [failed] at fine
    cases fine

/-- The template `\{{ ' {{#> 'a@b'}}x{{/'a@b'}}`. Its first braces are escaped and make no tag, but
what looks for references takes them for one, and the apostrophe behind them for the start of a
literal. -/
def hiddenQuote : String :=
  "\\\x7b\x7b ' \x7b\x7b#> 'a@b'\x7d\x7dx\x7b\x7b/'a@b'\x7d\x7d"

/-- The error of a template that does not compile. -/
def failure? {α : Type} : Except CompileError α → Option CompileError
  | .ok _ => none
  | .error err => some err

theorem eq_error_of_failure? {α : Type} {x : Except CompileError α} {err : CompileError}
    (fails : failure? x = some err) : x = .error err := by
  cases x with
  | ok _ => cases fails
  | error _ => exact congrArg _ (Option.some.inj fails)

theorem renderTemplate_hiddenQuote :
    checkTemplate hiddenQuote = .ok () ∧ ∀ lib root, renderTemplate lib hiddenQuote root =
      .error (.render (.doesNotCompile
        (.decoratorMismatch "'a@root.__dotprompt_ctx.b'" "'a@b'"))) := by
  have failed : Template.compile false (redirectAll hiddenQuote) =
      .error (.decoratorMismatch "'a@root.__dotprompt_ctx.b'" "'a@b'") :=
    eq_error_of_failure? (by decide +kernel)
  refine ⟨checkTemplate_of_isOk (by decide +kernel), fun lib root => ?_⟩
  rw [renderTemplate, renderSource, failed]
  rfl

end Promptry
