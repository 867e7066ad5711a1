import Promptry.Proofs.Engine.Configs
import Promptry.Proofs.Engine.Tools
import Promptry.Proofs.Schema.Settled

/-!
Resolving what was resolved. The layers are below already, the tools have been looked for, so that
only schemas can change: resolved metadata stays as it is if and only if its schemas are settled.
Main statement: `resolveMetadata_again`.
-/

namespace Promptry.Engine

open Template.References
open Schema (Settled BecomesSettled)

variable {e : Engine} {base m m' r : Metadata} {overrides : Option Metadata}

/-! ### Layers -/

theorem override_override {α : Type} (base top : Option α) :
    override base (override base top) = override base top := by
  cases top with
  | some x => rfl
  | none => cases base <;> rfl

theorem mergeFields_mergeFields {base : Option Fields}
    (distinct : ∀ fs, base = some fs → (Fields.keys fs).Nodup) (top : Option Fields) :
    mergeFields base (mergeFields base top) = mergeFields base top := by
  cases base with
  | none => rw [mergeFields_none_left]
  | some fs =>
    have nodup := distinct fs rfl
    cases top with
    | none => exact congrArg some (Table.merge_of_covers nodup List.prefix_rfl)
    | some top => exact congrArg some (Table.merge_merge nodup top)

/-- The configuration of the model. -/
def modelConfig (e : Engine) (model : Option String) : Option Fields :=
  model.bind fun name => Table.get? e.modelConfigs name

theorem nodup_modelConfig (distinct : e.DistinctConfigs) {model : Option String} {fs : Fields}
    (config : e.modelConfig model = some fs) : (Fields.keys fs).Nodup := by
  obtain ⟨name, -, here⟩ := Option.bind_eq_some_iff.mp config
  exact distinct _ (Table.mem_of_get? here)

theorem layered_none (e : Engine) (m : Metadata) : e.layered m none =
    { m with
      model := override e.defaultModel m.model
      config := mergeFields (e.modelConfig (override e.defaultModel m.model)) m.config } := rfl

/-- Overrides are layered before the defaults of the engine. -/
theorem exists_layered (e : Engine) (base : Metadata) (overrides : Option Metadata) :
    ∃ m, e.layered base overrides = e.layered m none := by
  cases overrides with
  | none => exact ⟨base, rfl⟩
  | some top => exact ⟨base.layer top, rfl⟩

/-- What is layered already stays so. -/
theorem layered_again (distinct : e.DistinctConfigs)
    (model : r.model = (e.layered base overrides).model)
    (config : r.config = (e.layered base overrides).config) : e.layered r none = r := by
  obtain ⟨m, layers⟩ := exists_layered e base overrides
  rw [layers, layered_none] at model config
  have sameModel : override e.defaultModel r.model = r.model := by
    rw [model, override_override]
  have sameConfig : mergeFields (e.modelConfig r.model) r.config = r.config := by
    rw [config, model]
    exact mergeFields_mergeFields (fun _ => nodup_modelConfig distinct) _
  rw [layered_none, sameModel, sameConfig]

/-! ### Tools -/

theorem eraseDups_of_nodup {xs : List String} (nodup : xs.Nodup) : xs.eraseDups = xs := by
  induction xs with
  | nil => rfl
  | cons x xs ih =>
    obtain ⟨new, rest⟩ := List.nodup_cons.mp nodup
    have others : (xs.filter fun y => !y == x) = xs := by
      refine List.filter_eq_self.mpr fun y mem => ?_
      have ne : y ≠ x := fun same => new (same ▸ mem)
      simpa using ne
    rw [List.eraseDups_cons, others, ih rest]

theorem nodup_missingTools (names : List String) (defs : List ToolDefinition) :
    (e.missingTools names defs).Nodup := (distinct_nodup [] names).filter _

/-- Of the names that are missing none is found. -/
theorem filterMap_missingTools (names : List String) (defs : List ToolDefinition) :
    (distinct [] (e.missingTools names defs)).filterMap e.tool? = [] := by
  rw [distinct_nil_eq_eraseDups, eraseDups_of_nodup (nodup_missingTools names defs)]
  refine List.filterMap_eq_nil_iff.mpr fun name mem => ?_
  exact tool?_eq_none_iff.mpr (mem_missingTools.mp mem).2.1

/-- All names that are missing are missing again. -/
theorem missingTools_again (names : List String) (defs : List ToolDefinition) :
    e.missingTools (e.missingTools names defs) defs = e.missingTools names defs := by
  rw [missingTools, distinct_nil_eq_eraseDups, eraseDups_of_nodup (nodup_missingTools names defs)]
  exact List.filter_eq_self.mpr fun name mem => (List.mem_filter.mp mem).2

/-- What comes of the tools stays so. -/
theorem resolveTools_again (answer : (e.resolveTools m).result = .ok r) :
    ∃ tools toolDefs, r = { m with tools, toolDefs } ∧
      ∀ m' : Metadata, m'.tools = tools → m'.toolDefs = toolDefs →
        (e.resolveTools m').result = .ok m' := by
  cases declared : m.tools with
  | none =>
    rw [resolveTools_of_none declared] at answer
    cases answer
    refine ⟨none, m.toolDefs, by rw [← declared], fun m' tools _ => ?_⟩
    rw [resolveTools_of_none tools]
    rfl
  | some names =>
    rw [resolveTools_of_declared declared rfl] at answer
    generalize addTools _ _ = defs at answer
    cases refusal : e.refusal? (e.missingTools names defs) with
    | some name =>
      rw [refusal] at answer
      cases answer
    | none =>
      rw [refusal] at answer
      cases answer
      refine ⟨_, _, rfl, fun m' tools toolDefs => ?_⟩
      cases missing : e.missingTools names defs with
      | nil =>
        rw [missing] at tools
        rw [resolveTools_of_none tools]
        rfl
      | cons name rest =>
        -- the names that are left are looked for again, in vain
        have declared' : m'.tools = some (e.missingTools names defs) := by
          rw [tools, missing]
          rfl
        have added : addTools (m'.toolDefs.getD [])
            ((distinct [] (e.missingTools names defs)).filterMap e.tool?) = defs := by
          rw [toolDefs, getD_unlessEmpty, filterMap_missingTools, addTools_nil]
        rw [resolveTools_of_declared declared' added, missingTools_again, refusal]
        show Except.ok { m' with toolDefs := _, tools := _ } = Except.ok m'
        rw [← tools, ← toolDefs]

/-! ### Schemas -/

/-- A field for a schema. -/
structure SchemaField (γ : Type) where
  get : γ → Option Json
  set : γ → Option Json → γ
  get_set : ∀ c s, get (set c s) = s
  set_get : ∀ c, set c (get c) = c

def inputSchema : SchemaField InputConfig where
  get c := c.schema
  set c schema := { c with schema }
  get_set _ _ := rfl
  set_get _ := rfl

def outputSchema : SchemaField OutputConfig where
  get c := c.schema
  set c schema := { c with schema }
  get_set _ _ := rfl
  set_get _ := rfl

/-- A part of metadata, and the same with its schema resolved. -/
def Resolves (e : Engine) {γ : Type} (field : SchemaField γ) : Option γ → Option γ → Prop
  | none, c' => c' = none
  | some c, c' => ∃ s, (e.resolveSchema (field.get c)).result = .ok s ∧ c' = some (field.set c s)

/-- The schema of a part becomes one that is settled. -/
def PartSettles (e : Engine) {γ : Type} (field : SchemaField γ) (c : Option γ) : Prop :=
  ∀ v, c.bind field.get = some v → BecomesSettled e.schemaLookup v

theorem resolveSchema_eq_ok_iff {v : Json} {s : Option Json} :
    (e.resolveSchema (some v)).result = .ok s ↔
      (Schema.ofShorthand e.schemaLookup v).result.1 = .ok s := mapError_eq_ok_iff

theorem resolveSchema_eq_self_iff {s : Option Json} :
    (e.resolveSchema s).result = .ok s ↔ Settled e.schemaLookup s := by
  cases s with
  | none => exact iff_of_true rfl trivial
  | some v => exact resolveSchema_eq_ok_iff.trans Schema.ofShorthand_eq_self_iff

theorem settled_resolveSchema_iff {s s' : Option Json}
    (answer : (e.resolveSchema s).result = .ok s') :
    Settled e.schemaLookup s' ↔ ∀ v, s = some v → BecomesSettled e.schemaLookup v := by
  cases s with
  | none =>
    cases answer
    exact iff_of_true trivial nofun
  | some v =>
    rw [(Schema.becomes_of_ofShorthand (resolveSchema_eq_ok_iff.mp answer)).settled_iff]
    exact ⟨fun settles _ same => Option.some.inj same ▸ settles, fun all => all v rfl⟩

section

variable {γ : Type} {field : SchemaField γ} {c c' : Option γ}

/-- A part resolves to itself if and only if its schema is settled. -/
theorem resolves_self_iff : e.Resolves field c c ↔ Settled e.schemaLookup (c.bind field.get) := by
  cases c with
  | none => exact iff_of_true rfl trivial
  | some c =>
    rw [Option.bind_some, ← resolveSchema_eq_self_iff]
    constructor
    · rintro ⟨s, answer, same⟩
      have kept : s = field.get c := by
        rw [← field.get_set c s, ← Option.some.inj same]
      rw [kept] at answer
      exact answer
    · exact fun answer => ⟨_, answer, by rw [field.set_get]⟩

/-- A part that resolved does so again, to itself, if and only if its schema became settled. -/
theorem Resolves.again_iff (resolves : e.Resolves field c c') :
    e.Resolves field c' c' ↔ e.PartSettles field c := by
  rw [resolves_self_iff, PartSettles]
  cases c with
  | none =>
    cases resolves
    exact iff_of_true trivial nofun
  | some c =>
    obtain ⟨s, answer, rfl⟩ := resolves
    rw [Option.bind_some, field.get_set]
    exact settled_resolveSchema_iff answer

end

theorem result_andThen_pure_eq_ok_iff {α β : Type} {x : Logged α} {f : α → β} {b : β} :
    (x.andThen fun a => .pure (f a)).result = .ok b ↔ ∃ a, x.result = .ok a ∧ f a = b := by
  rw [result_andThen]
  cases x.result with
  | error err => exact ⟨nofun, nofun⟩
  | ok a =>
    constructor
    · exact fun same => ⟨a, rfl, Except.ok.inj same⟩
    · rintro ⟨_, ⟨⟩, rfl⟩
      rfl

/-- A stage that resolves the schema of a part, if there is one. -/
theorem part_eq_ok_iff {γ : Type} (field : SchemaField γ) {c : Option γ} {x : Logged Metadata}
    (withPart : Option γ → Metadata) (none : c = none → x = .pure (withPart none))
    (some : ∀ p, c = some p → x = (e.resolveSchema (field.get p)).andThen fun s =>
      .pure (withPart (some (field.set p s)))) :
    x.result = .ok r ↔ ∃ c', e.Resolves field c c' ∧ r = withPart c' := by
  cases c with
  | none =>
    rw [none rfl]
    constructor
    · rintro ⟨⟩
      exact ⟨_, rfl, rfl⟩
    · rintro ⟨_, rfl, rfl⟩
      rfl
  | some p =>
    rw [some p rfl, result_andThen_pure_eq_ok_iff]
    constructor
    · rintro ⟨s, answer, rfl⟩
      exact ⟨_, ⟨s, answer, rfl⟩, rfl⟩
    · rintro ⟨_, ⟨s, answer, rfl⟩, rfl⟩
      exact ⟨s, answer, rfl⟩

theorem resolveInput_eq_ok_iff : (e.resolveInput m).result = .ok r ↔
    ∃ input, e.Resolves inputSchema m.input input ∧ r = { m with input } := by
  apply part_eq_ok_iff inputSchema fun input => { m with input }
  · intro missing
    have same : m = { m with input := none } := by rw [← missing]
    rw [resolveInput, missing]
    exact congrArg Logged.pure same
  · intro c here
    rw [resolveInput, here]
    rfl

theorem resolveOutput_eq_ok_iff : (e.resolveOutput m).result = .ok r ↔
    ∃ output, e.Resolves outputSchema m.output output ∧ r = { m with output } := by
  apply part_eq_ok_iff outputSchema fun output => { m with output }
  · intro missing
    have same : m = { m with output := none } := by rw [← missing]
    rw [resolveOutput, missing]
    exact congrArg Logged.pure same
  · intro c here
    rw [resolveOutput, here]
    rfl

/-- The stages of the schemas. -/
theorem resolveSchemas_eq_ok_iff : ((e.resolveInput m).andThen e.resolveOutput).result = .ok r ↔
    ∃ input output, e.Resolves inputSchema m.input input ∧
      e.Resolves outputSchema m.output output ∧ r = { m with input, output } := by
  rw [result_andThen]
  constructor
  · intro answer
    cases first : (e.resolveInput m).result with
    | error err =>
      rw [first] at answer
      cases answer
    | ok middle =>
      rw [first] at answer
      obtain ⟨input, resolved, rfl⟩ := resolveInput_eq_ok_iff.mp first
      obtain ⟨output, resolved', rfl⟩ := resolveOutput_eq_ok_iff.mp answer
      exact ⟨input, output, resolved, resolved', rfl⟩
  · rintro ⟨input, output, resolved, resolved', rfl⟩
    rw [resolveInput_eq_ok_iff.mpr ⟨input, resolved, rfl⟩]
    exact resolveOutput_eq_ok_iff.mpr ⟨output, resolved', rfl⟩

/-! ### All stages -/

theorem resolveMetadata_eq_ok (answer : (e.resolveMetadata base overrides).result = .ok r) :
    ∃ m, (e.resolveTools (e.layered base overrides)).result = .ok m ∧
      ((e.resolveInput m).andThen e.resolveOutput).result = .ok r := by
  rw [resolveMetadata, andThen_assoc, result_andThen] at answer
  cases first : (e.resolveTools (e.layered base overrides)).result with
  | error err =>
    rw [first] at answer
    cases answer
  | ok m =>
    rw [first] at answer
    exact ⟨m, rfl, answer⟩

/-- Both parts of the answer are those of the layers with their schemas resolved. -/
theorem resolves_of_resolveMetadata (answer : (e.resolveMetadata base overrides).result = .ok r) :
    e.Resolves inputSchema (e.layered base overrides).input r.input ∧
      e.Resolves outputSchema (e.layered base overrides).output r.output := by
  obtain ⟨m, first, second⟩ := resolveMetadata_eq_ok answer
  obtain ⟨tools, toolDefs, rfl, -⟩ := resolveTools_again first
  obtain ⟨input, output, resolved, resolved', rfl⟩ := resolveSchemas_eq_ok_iff.mp second
  exact ⟨resolved, resolved'⟩

/-- Metadata that was resolved is resolved again by resolving its schemas again. -/
theorem resolveMetadata_of_resolved (distinct : e.DistinctConfigs)
    (answer : (e.resolveMetadata base overrides).result = .ok r) :
    (e.resolveMetadata r none).result = ((e.resolveInput r).andThen e.resolveOutput).result := by
  obtain ⟨m, first, second⟩ := resolveMetadata_eq_ok answer
  obtain ⟨tools, toolDefs, resolvedTools, toolsAgain⟩ := resolveTools_again first
  obtain ⟨input, output, -, -, resolvedSchemas⟩ := resolveSchemas_eq_ok_iff.mp second
  have layers : e.layered r none = r := by
    apply layered_again distinct
    · rw [resolvedSchemas, resolvedTools]
    · rw [resolvedSchemas, resolvedTools]
  have stays : (e.resolveTools r).result = .ok r := by
    apply toolsAgain
    · rw [resolvedSchemas, resolvedTools]
    · rw [resolvedSchemas, resolvedTools]
  rw [resolveMetadata, andThen_assoc, result_andThen, layers, stays]
  rfl

/-- Metadata that was resolved stays as it is when it is resolved again, if and only if the schemas
declared became settled; in any case nothing but schemas is resolved, and at most input and output
change. -/
theorem resolveMetadata_again (distinct : e.DistinctConfigs)
    (answer : (e.resolveMetadata base overrides).result = .ok r) :
    ((e.resolveMetadata r none).result = .ok r ↔
      e.PartSettles inputSchema (e.layered base overrides).input ∧
        e.PartSettles outputSchema (e.layered base overrides).output) ∧
    (∀ r', (e.resolveMetadata r none).result = .ok r' →
      r' = { r with input := r'.input, output := r'.output }) ∧
    ∀ err, (e.resolveMetadata r none).result = .error err → ∃ cause, err = .schema cause := by
  rw [resolveMetadata_of_resolved distinct answer]
  obtain ⟨input, output⟩ := resolves_of_resolveMetadata answer
  refine ⟨?_, fun r' answer' => ?_, (keepsTools_stages r).error⟩
  · rw [resolveSchemas_eq_ok_iff, ← input.again_iff, ← output.again_iff]
    constructor
    · rintro ⟨input', output', again, again', same⟩
      have sameInput : r.input = input' := congrArg Metadata.input same
      have sameOutput : r.output = output' := congrArg Metadata.output same
      exact ⟨sameInput ▸ again, sameOutput ▸ again'⟩
    · rintro ⟨again, again'⟩
      exact ⟨r.input, r.output, again, again', rfl⟩
  · obtain ⟨input', output', -, -, rfl⟩ := resolveSchemas_eq_ok_iff.mp answer'
    rfl

/-- An engine with a default model, a tool and a schema with a type. -/
def stocked : Engine where
  defaultModel := some "small"
  modelConfigs := [("small", [("temperature", .ofInt 1)])]
  tools := [("calc", { name := "calc" })]
  schemas := [("Person", .obj [("type", .str "object"), ("title", .str "Person")])]

/-- Metadata with a schema by name and another one in shorthand. -/
def declared : Metadata where
  config := some [("topK", .ofInt 3), ("temperature", .ofInt 0)]
  tools := some ["calc", "ghost"]
  input := some { schema := some (.str "Person, who asks") }
  output := some { schema := some (.obj [("answer?", .str "string")]) }

/-- What comes of this metadata stays as it is. -/
theorem resolveMetadata_again_declared :
    stocked.DistinctConfigs ∧
    ∃ r, (stocked.resolveMetadata declared none).result = .ok r ∧
      (stocked.resolveMetadata r none).result = .ok r := by
  have distinct : stocked.DistinctConfigs := by
    intro c mem
    cases List.mem_singleton.mp mem
    decide
  have resolved : (stocked.resolveMetadata declared none).result = .ok _ := rfl
  have input : stocked.PartSettles inputSchema declared.input := by
    rintro _ ⟨⟩
    refine ⟨by decide, ?_⟩
    rintro s ⟨-, _, ⟨⟩, ⟨⟩⟩
    rfl
  have output : stocked.PartSettles outputSchema declared.output := by
    rintro _ ⟨⟩
    trivial
  exact ⟨distinct, _, resolved, (resolveMetadata_again distinct resolved).1.mpr ⟨input, output⟩⟩

/-- The schema of `any` is an empty object, which becomes the schema of an object without fields. -/
theorem resolveMetadata_again_any :
    (({} : Engine).resolveMetadata { input := some { schema := some (.str "any") } } none).result =
        .ok { input := some { schema := some (.obj []) } } ∧
      (({} : Engine).resolveMetadata { input := some { schema := some (.obj []) } } none).result =
        .ok { input := some { schema := some (.obj [("type", .str "object"),
          ("properties", .obj []), ("additionalProperties", .bool false)]) } } ∧
      (({} : Engine).resolveMetadata { input := some { schema := some (.obj []) } } none).result ≠
        .ok { input := some { schema := some (.obj []) } } := by
  refine ⟨rfl, rfl, ?_⟩
  intro same
  cases same

end Promptry.Engine
