import Mathlib.Data.List.TakeDrop
import Promptry.Prompt.Check
import Promptry.Proofs.Except

/-!
Sources with fences and without. Without one the whole source is the template; with one the template
is shorter, since the first line at least is none of it. Main statement: `template_eq_iff`.
-/

namespace Promptry

namespace Source

/-- The first line is a fence, so that settings stand before the template. -/
def isFenced (source : String) : Bool :=
  match lines source.toList with
  | [] => false
  | first :: _ => isFence first

variable {source : String} {parts : Parts}

theorem isFence_nil : isFence [] = false := by decide

/-- Behind two fences less is left than stood there. -/
theorem length_template_lt {cs first : List Char} {body : List (List Char)}
    (isLines : lines cs = first :: body) (fence : isFence first = true) {closing : List Char}
    {template : List (List Char)}
    (behind : (body.dropWhile fun l => !isFence l) = closing :: template) :
    template.flatten.length < cs.length := by
  have some : 0 < first.length := by
    cases first with
    | nil => rw [isFence_nil] at fence; cases fence
    | cons => exact Nat.succ_pos _
  have whole := lines_flatten cs
  rw [isLines, List.flatten_cons, ← List.takeWhile_append_dropWhile (p := fun l => !isFence l)
    (l := body), behind, List.flatten_append, List.flatten_cons] at whole
  simp only [← whole, List.length_append]
  omega

/-- Cutting a source leaves it whole, or cuts off what stands before the template. -/
theorem cut_eq_ok (cutting : cut source.toList = .ok parts) :
    (isFenced source = false ∧ parts = ⟨none, source.toList⟩) ∨
      isFenced source = true ∧ parts.template.length < source.toList.length := by
  rw [cut] at cutting
  rw [isFenced]
  cases isLines : lines source.toList with
  | nil =>
    rw [isLines] at cutting
    cases cutting
    exact .inl ⟨rfl, rfl⟩
  | cons first body =>
    rw [isLines] at cutting
    dsimp only at cutting ⊢
    cases fence : isFence first with
    | false =>
      rw [fence] at cutting
      cases cutting
      exact .inl ⟨rfl, rfl⟩
    | true =>
      rw [fence] at cutting
      simp only [Bool.not_true, Bool.false_eq_true, if_false] at cutting
      split at cutting
      · cases cutting
      · next head closing template spanned =>
        rw [List.span_eq_takeWhile_dropWhile] at spanned
        cases cutting
        exact .inr ⟨rfl, length_template_lt isLines fence (Prod.mk.inj spanned).2⟩

end Source

theorem split_of_ofSource {source : String} {prompt : ParsedPrompt}
    (read : ParsedPrompt.ofSource source = .ok prompt) :
    ∃ config, Source.split source = .ok (prompt.template, config) := by
  obtain ⟨⟨template, config⟩, divided, read⟩ := exists_of_bind_eq_ok read
  obtain ⟨metadata, -, read⟩ := exists_of_bind_eq_ok read
  cases read
  exact ⟨config, divided⟩

/-- The template of a source is what is left when it is cut. -/
theorem cut_of_split {source template : String} {config : Fields}
    (divided : Source.split source = .ok (template, config)) :
    ∃ parts, Source.cut source.toList = .ok parts ∧ template = String.ofList parts.template := by
  obtain ⟨⟨head, body⟩, cutting, divided⟩ := exists_of_bind_eq_ok divided
  refine ⟨⟨head, body⟩, cutting, ?_⟩
  cases head with
  | none =>
    cases divided
    rfl
  | some head =>
    obtain ⟨config, -, divided⟩ := exists_of_bind_eq_ok divided
    cases divided
    rfl

/-- The template of a source is all of it if and only if no settings stand before it. -/
theorem template_eq_iff {source : String} {prompt : ParsedPrompt}
    (read : ParsedPrompt.ofSource source = .ok prompt) :
    prompt.template = source ↔ Source.isFenced source = false := by
  obtain ⟨config, divided⟩ := split_of_ofSource read
  obtain ⟨parts, cutting, template⟩ := cut_of_split divided
  rw [template]
  rcases Source.cut_eq_ok cutting with ⟨plain, rfl⟩ | ⟨fenced, shorter⟩
  · exact iff_of_true String.ofList_toList plain
  · refine iff_of_false (fun same => ?_) (by rw [fenced]; nofun)
    rw [← congrArg String.toList same, String.toList_ofList] at shorter
    exact absurd shorter (Nat.lt_irrefl _)

/-- What is checked of a source is its template. -/
theorem checkSource_eq_ok {source : String} {prompt : ParsedPrompt}
    (checked : checkSource source = .ok prompt) :
    ParsedPrompt.ofSource source = .ok prompt ∧ checkTemplate prompt.template = .ok () := by
  rw [checkSource] at checked
  split at checked
  · cases checked
  · obtain ⟨found, read, checked⟩ := exists_of_bind_eq_ok checked
    obtain ⟨⟨⟩, sound, checked⟩ := exists_of_bind_eq_ok checked
    cases checked
    cases parsed : ParsedPrompt.ofSource source with
    | error err =>
      rw [parsed] at read
      cases read
    | ok prompt =>
      rw [parsed] at read
      cases read
      exact ⟨rfl, sound⟩

end Promptry
