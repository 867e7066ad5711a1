import Promptry.Engine.Rendering
import Promptry.Proofs.Engine.Fixpoint
import Promptry.Proofs.Prompt.Layering

/-!
Which layer wins. The model, its configuration and the root that a template is rendered against are
put together from layers: the caller's values, the overrides, the metadata of the prompt and the
defaults of the engine. Each key has the value of the first of them that sets it, and null counts as
a value. Main statement: `resolveMetadata_layers`.
-/

namespace Promptry

/-- The caller's data variables are found as they were given. -/
theorem get?_contextFields {m : Metadata} {data : RenderData} (given : IsMap data.context)
    {key : String} {value : Json} (here : fieldAt? data.context key = some value) :
    Fields.get? (contextFields m data) key = some value := by
  obtain ⟨fs, same, found⟩ := Option.bind_eq_some_iff.mp here
  rw [contextFields, same, Option.getD_some]
  exact (Table.get?_merge (given fs same) _ key).trans (by rw [found]; rfl)

namespace Engine

variable {e : Engine} {base r : Metadata} {overrides : Option Metadata}

/-- No overrides are overrides that set nothing. -/
theorem layered_getD (e : Engine) (base : Metadata) (overrides : Option Metadata) :
    e.layered base overrides = e.layered (base.layer (overrides.getD {})) none := by
  cases overrides with
  | none => exact congrArg (e.layered · none) base.layer_empty.symm
  | some top => rfl

/-- Resolving changes none of the fields that only layers decide. The configuration of the model is
that of the model that was resolved. -/
theorem layers_of_resolveMetadata (answer : (e.resolveMetadata base overrides).result = .ok r) :
    r.model = override e.defaultModel (base.layer (overrides.getD {})).model ∧
      r.config = mergeFields (e.modelConfig r.model) (base.layer (overrides.getD {})).config ∧
      r.defaults = (base.layer (overrides.getD {})).defaults := by
  obtain ⟨m, first, second⟩ := resolveMetadata_eq_ok answer
  obtain ⟨tools, toolDefs, rfl, -⟩ := resolveTools_again first
  obtain ⟨input, output, resolved, -, rfl⟩ := resolveSchemas_eq_ok_iff.mp second
  rw [layered_getD] at resolved ⊢
  refine ⟨rfl, rfl, ?_⟩
  simp only [Metadata.defaults]
  cases here : (base.layer (overrides.getD {})).input with
  | none =>
    rw [layered_none, here] at resolved
    rw [show input = none from resolved]
  | some c =>
    rw [layered_none, here] at resolved
    obtain ⟨s, -, rfl⟩ := resolved
    rfl

/-- Rendering a prompt renders its template against the root of the resolved metadata. -/
theorem renderPrompt_of_resolved {prompt : ParsedPrompt}
    (answer : (e.resolveMetadata prompt.metadata overrides).result = .ok r) (data : RenderData) :
    (e.renderPrompt prompt data overrides).result =
      (renderTemplate e.library prompt.template (.obj (contextRoot r data))).map fun text =>
        ⟨r, messagesOf text data.messages⟩ := by
  rw [renderPrompt, result_andThen, answer]
  rfl

/-- The model is that of the overrides, else that of the prompt, else the default one. Each setting
of its configuration is that of the overrides, else that of the prompt, else that of the engine for
this very model. A template is rendered against a root that has, under each key but the reserved
one, the caller's input, else the default of the overrides, else that of the prompt; what else the
caller hands over stands under the reserved key only, where all data variables are found as they
were given. -/
theorem resolveMetadata_layers
    (answer : (e.resolveMetadata base overrides).result = .ok r) (data : RenderData)
    (keyed : base.Keyed) (keyed' : (overrides.getD {}).Keyed) (input : IsMap data.input)
    (given : IsMap data.context) :
    let top := overrides.getD {}
    r.model = (top.model.or base.model).or e.defaultModel ∧
    (∀ key, fieldAt? r.config key =
      ((fieldAt? top.config key).or (fieldAt? base.config key)).or
        (fieldAt? (e.modelConfig r.model) key)) ∧
    (∀ template, (e.renderPrompt ⟨base, template⟩ data overrides).result =
      (renderTemplate e.library template (.obj (contextRoot r data))).map fun text =>
        ⟨r, messagesOf text data.messages⟩) ∧
    (∀ key, key ≠ Template.DataVariables.contextKey →
      Fields.get? (contextRoot r data) key =
        ((fieldAt? data.input key).or (fieldAt? top.defaults key)).or
          (fieldAt? base.defaults key)) ∧
    (∀ data' : RenderData, data'.input = data.input →
      Table.erase (contextRoot r data') Template.DataVariables.contextKey =
        Table.erase (contextRoot r data) Template.DataVariables.contextKey) ∧
    ∃ context,
      Fields.get? (contextRoot r data) Template.DataVariables.contextKey = some (.obj context) ∧
      ∀ key value, fieldAt? data.context key = some value →
        Fields.get? context key = some value := by
  intro top
  obtain ⟨model, config, defaults⟩ := layers_of_resolveMetadata answer
  refine ⟨?_, fun key => ?_, fun template => renderPrompt_of_resolved answer data,
    fun key other => ?_, fun data' same => ?_, contextFields r data,
    get?_contextRoot_context r data, fun key value here => ?_⟩
  · rw [model]
    simp only [Metadata.layer, override_eq_or, top]
  · have whole : IsMap (base.layer top).config := keyed.config.mergeFields keyed'.config
    rw [config, fieldAt?_mergeFields whole]
    exact congrArg (Option.or · _) (fieldAt?_mergeFields keyed'.config key)
  · have lower : fieldAt? r.defaults key =
        (fieldAt? top.defaults key).or (fieldAt? base.defaults key) := by
      rw [defaults]
      exact (congrArg (fieldAt? · key) (base.defaults_layer top)).trans
        (fieldAt?_mergeFields keyed'.defaults key)
    rw [contextRoot, Fields.get?_insert_of_ne other, get?_merge_getD input, lower, Option.or_assoc]
  · rw [contextRoot, contextRoot, same]
    exact (Table.erase_insert_self _ _ _).trans (Table.erase_insert_self _ _ _).symm
  · exact get?_contextFields given here

/-- An engine with a default model, and configurations of two models. -/
def twoModels : Engine where
  defaultModel := some "base"
  modelConfigs := [("base", [("temperature", .ofNat 1)]),
    ("large", [("temperature", .ofNat 2), ("limit", .ofNat 9)])]

/-- A prompt with settings, and a default for each of two variables. -/
def greeting : Metadata where
  config := some [("limit", .ofNat 7)]
  input := some ⟨some [("name", .str "friend"), ("tone", .str "dry")], none⟩

/-- Overrides of the model, of a setting and of a default, of which the last is null. -/
def largeModel : Metadata where
  model := some "large"
  config := some [("stop", .bool true)]
  input := some ⟨some [("tone", .null)], none⟩

/-- What a caller hands over. -/
def visitor : RenderData where
  input := some [("name", .str "Ada")]
  context := some [("user", .str "ada")]

/-- The configuration is that of the model of the overrides, under the settings of the prompt; the
null of the overrides is kept. -/
theorem resolveMetadata_layers_large : ∃ r,
    (twoModels.resolveMetadata greeting (some largeModel)).result = .ok r ∧
      r.model = some "large" ∧
      fieldAt? r.config "temperature" = some (.ofNat 2) ∧
      fieldAt? r.config "limit" = some (.ofNat 7) ∧
      Fields.get? (contextRoot r visitor) "name" = some (.str "Ada") ∧
      Fields.get? (contextRoot r visitor) "tone" = some .null := by
  have keyed : greeting.Keyed := ⟨isMap_some (by decide), isMap_some (by decide)⟩
  have keyed' : largeModel.Keyed := ⟨isMap_some (by decide), isMap_some (by decide)⟩
  have resolves : ∃ r, (twoModels.resolveMetadata greeting (some largeModel)).result = .ok r :=
    ⟨_, rfl⟩
  obtain ⟨r, answer⟩ := resolves
  obtain ⟨model, config, -, root, -, -⟩ := resolveMetadata_layers answer visitor keyed keyed'
    (isMap_some (by decide)) (isMap_some (by decide))
  refine ⟨r, answer, model, ?_, ?_, ?_, ?_⟩
  · rw [config, model]
    rfl
  · rw [config, model]
    rfl
  · rw [root "name" (by decide)]
    rfl
  · rw [root "tone" (by decide)]
    rfl

end Engine

end Promptry
