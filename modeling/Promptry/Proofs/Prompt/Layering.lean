import Promptry.Prompt.Metadata
import Promptry.Proofs.Table

/-!
Layers of metadata. The upper layer wins field by field, and key by key in the objects of settings,
extensions and defaults; where none of these has a key twice, layers may be collapsed in any
grouping, also with regard to the order of the keys. Main statements: `fieldAt?_mergeFields`,
`Metadata.layer_assoc` and `Metadata.layer_collapses`.
-/

namespace Promptry

/-- The field of an object that may be missing. -/
def fieldAt? (fs : Option Fields) (key : String) : Option Json :=
  fs.bind fun fs => Fields.get? fs key

/-- An object that may be missing has no key twice. -/
def IsMap (fs : Option Fields) : Prop := ∀ here, fs = some here → (Fields.keys here).Nodup

theorem isMap_some {fs : Fields} (nodup : (Fields.keys fs).Nodup) : IsMap (some fs) := by
  rintro _ ⟨⟩
  exact nodup

/-! ### Objects -/

section

variable {base top : Option Fields}

theorem IsMap.mergeFields (lower : IsMap base) (upper : IsMap top) :
    IsMap (mergeFields base top) := by
  cases top with
  | none => rwa [mergeFields_none_right]
  | some fs =>
    cases base with
    | none => exact upper
    | some low => exact isMap_some (Table.nodup_keys_merge (lower low rfl) fs)

/-- The upper of two layers wins. -/
theorem fieldAt?_mergeFields (upper : IsMap top) (key : String) :
    fieldAt? (mergeFields base top) key = (fieldAt? top key).or (fieldAt? base key) := by
  cases top with
  | none => rw [mergeFields_none_right]; rfl
  | some fs =>
    cases base with
    | none => exact (Option.or_none (o := fieldAt? (some fs) key)).symm
    | some low => exact Table.get?_merge (upper fs rfl) low key

theorem get?_merge_getD (upper : IsMap top) (key : String) :
    Fields.get? (Fields.merge (base.getD []) (top.getD [])) key =
      (fieldAt? top key).or (fieldAt? base key) := by
  have lower : Fields.get? (base.getD []) key = fieldAt? base key := by cases base <;> rfl
  cases top with
  | none => exact lower
  | some fs => exact (Table.get?_merge (upper fs rfl) _ key).trans (by rw [lower]; rfl)

theorem mergeFields_assoc {middle : Option Fields} (map : IsMap middle) (base top : Option Fields) :
    mergeFields (mergeFields base middle) top = mergeFields base (mergeFields middle top) := by
  cases top with
  | none => simp only [mergeFields_none_right]
  | some fs =>
    cases middle with
    | none => simp only [mergeFields_none_right, mergeFields_none_left]
    | some mid =>
      cases base with
      | none => simp only [mergeFields_none_left]
      | some low => exact congrArg some (Table.merge_assoc (map mid rfl) low fs)

theorem mergeFields_self (map : IsMap base) : mergeFields base base = base := by
  cases base with
  | none => rfl
  | some fs => exact congrArg some (Table.merge_of_covers (map fs rfl) List.prefix_rfl)

end

/-! ### Values that may be missing -/

section

variable {α : Type}

theorem override_eq_or (base top : Option α) : override base top = top.or base := by
  cases top <;> rfl

theorem override_assoc (base middle top : Option α) :
    override (override base middle) top = override base (override middle top) := by
  cases top <;> rfl

theorem override_self (base : Option α) : override base base = base := by
  cases base <;> rfl

variable {empty : α} {layer : α → α → α}

theorem layerOver_assoc {middle : Option α} (neutral : ∀ x, layer empty x = x)
    (assoc : ∀ y, middle = some y → ∀ x z, layer (layer x y) z = layer x (layer y z))
    (base top : Option α) :
    layerOver empty layer (layerOver empty layer base middle) top =
      layerOver empty layer base (layerOver empty layer middle top) := by
  cases top with
  | none => rfl
  | some z =>
    cases middle with
    | none => exact congrArg (fun x => some (layer (base.getD empty) x)) (neutral z).symm
    | some y => exact congrArg some (assoc y rfl (base.getD empty) z)

theorem layerOver_self {base : Option α} (idem : ∀ x, base = some x → layer x x = x) :
    layerOver empty layer base base = base := by
  cases base with
  | none => rfl
  | some x => exact congrArg some (idem x rfl)

end

namespace InputConfig

theorem empty_layer (c : InputConfig) : layer {} c = c := by
  rw [layer, mergeFields_none_left, override_eq_or, Option.or_none]

theorem layer_assoc {middle : InputConfig} (map : IsMap middle.defaults) (base top : InputConfig) :
    (base.layer middle).layer top = base.layer (middle.layer top) :=
  congrArg₂ mk (mergeFields_assoc map _ _) (override_assoc _ _ _)

theorem layer_self {c : InputConfig} (map : IsMap c.defaults) : c.layer c = c :=
  congrArg₂ mk (mergeFields_self map) (override_self _)

end InputConfig

namespace OutputConfig

theorem empty_layer (c : OutputConfig) : layer {} c = c := by
  rw [layer, override_eq_or, override_eq_or, Option.or_none, Option.or_none]

theorem layer_assoc (base middle top : OutputConfig) :
    (base.layer middle).layer top = base.layer (middle.layer top) :=
  congrArg₂ mk (override_assoc _ _ _) (override_assoc _ _ _)

theorem layer_self (c : OutputConfig) : c.layer c = c :=
  congrArg₂ mk (override_self _) (override_self _)

end OutputConfig

/-! ### Metadata -/

namespace Metadata

/-- The objects of metadata that resolving layers key by key are maps. -/
structure Keyed (m : Metadata) : Prop where
  config : IsMap m.config
  defaults : IsMap m.defaults

/-- All objects of metadata that are layered key by key are maps. -/
structure AllKeyed (m : Metadata) : Prop extends m.Keyed where
  ext : IsMap m.ext
  metadata : IsMap m.metadata

variable {m : Metadata}

/-- The defaults of two layers are merged, also where a layer has no input. -/
theorem defaults_layer (base top : Metadata) :
    (base.layer top).defaults = mergeFields base.defaults top.defaults := by
  cases upper : top.input with
  | none => simp [defaults, layer, layerOver, upper, mergeFields_none_right]
  | some _ =>
    cases lower : base.input <;>
      simp [defaults, layer, layerOver, InputConfig.layer, upper, lower]

theorem allKeyed_empty : AllKeyed {} := ⟨⟨nofun, nofun⟩, nofun, nofun⟩

theorem AllKeyed.layer {top : Metadata} (lower : m.AllKeyed) (upper : top.AllKeyed) :
    (m.layer top).AllKeyed where
  config := lower.config.mergeFields upper.config
  defaults := m.defaults_layer top ▸ lower.defaults.mergeFields upper.defaults
  ext := lower.ext.mergeFields upper.ext
  metadata := lower.metadata.mergeFields upper.metadata

theorem AllKeyed.input (keyed : m.AllKeyed) {c : InputConfig} (here : m.input = some c) :
    IsMap c.defaults := by
  have defaults := keyed.defaults
  rwa [Metadata.defaults, here] at defaults

/-- Layers may be collapsed in any grouping. -/
theorem layer_assoc (keyed : m.AllKeyed) (base top : Metadata) :
    (base.layer m).layer top = base.layer (m.layer top) := by
  simp only [layer, override_assoc, mergeFields_assoc keyed.config, mergeFields_assoc keyed.ext,
    mergeFields_assoc keyed.metadata, mk.injEq, true_and, and_true]
  exact ⟨layerOver_assoc InputConfig.empty_layer
      (fun _ here => InputConfig.layer_assoc (keyed.input here)) _ _,
    layerOver_assoc OutputConfig.empty_layer
      (fun middle _ base => OutputConfig.layer_assoc base middle) _ _⟩

/-- Metadata layered over itself stays as it is. -/
theorem layer_self (keyed : m.AllKeyed) : m.layer m = m := by
  have input : layerOver {} InputConfig.layer m.input m.input = m.input :=
    layerOver_self fun _ here => InputConfig.layer_self (keyed.input here)
  have output : layerOver {} OutputConfig.layer m.output m.output = m.output :=
    layerOver_self fun c _ => OutputConfig.layer_self c
  simp only [layer, override_self, mergeFields_self keyed.config, mergeFields_self keyed.ext,
    mergeFields_self keyed.metadata, input, output]

/-- A layer below any number of others comes out of their fold. -/
theorem foldl_layer {tops : List Metadata} (keyed : m.AllKeyed)
    (all : ∀ top ∈ tops, top.AllKeyed) (base : Metadata) :
    tops.foldl layer (base.layer m) = base.layer (tops.foldl layer m) := by
  induction tops generalizing m with
  | nil => rfl
  | cons top tops ih =>
    obtain ⟨first, rest⟩ := List.forall_mem_cons.mp all
    rw [List.foldl_cons, List.foldl_cons, layer_assoc keyed, ih (keyed.layer first) rest]

/-- Layers on top of metadata may be collapsed in groups first. -/
theorem foldl_groups {groups : List (List Metadata)}
    (all : ∀ group ∈ groups, ∀ top ∈ group, top.AllKeyed) (base : Metadata) :
    groups.flatten.foldl layer base =
      (groups.map fun group => group.foldl layer {}).foldl layer base := by
  induction groups generalizing base with
  | nil => rfl
  | cons group groups ih =>
    obtain ⟨first, rest⟩ := List.forall_mem_cons.mp all
    have collapsed := foldl_layer allKeyed_empty first base
    rw [layer_empty] at collapsed
    rw [List.flatten_cons, List.foldl_append, collapsed, ih rest, List.map_cons, List.foldl_cons]

/-- Metadata whose objects have no key twice are an idempotent monoid under layering: layers may be
put together in any grouping, an empty one counts for nothing, and one layered over itself stays as
it is, all with the keys of its objects in their order. -/
theorem layer_collapses {base middle : Metadata} (lower : base.AllKeyed) (keyed : middle.AllKeyed) :
    (base.layer middle).AllKeyed ∧
      (∀ top : Metadata, (base.layer middle).layer top = base.layer (middle.layer top)) ∧
      layer {} base = base ∧ base.layer {} = base ∧ base.layer base = base ∧
      ∀ groups : List (List Metadata), (∀ group ∈ groups, ∀ top ∈ group, top.AllKeyed) →
        groups.flatten.foldl layer base =
          (groups.map fun group => group.foldl layer {}).foldl layer base :=
  ⟨lower.layer keyed, layer_assoc keyed base, empty_layer base, layer_empty base, layer_self lower,
    fun _ all => foldl_groups all base⟩

/-- Settings, an extension and a default. -/
def plainLayer : Metadata where
  model := some "base"
  config := some [("temperature", .ofNat 1), ("limit", .ofNat 7)]
  input := some ⟨some [("tone", .str "dry")], none⟩
  ext := some [("team", .obj [])]

/-- A setting more, one that is known already, and an input without defaults. -/
def middleLayer : Metadata where
  config := some [("stop", .null), ("limit", .ofNat 8)]
  input := some ⟨none, some (.str "string")⟩
  output := some ⟨none, none⟩

/-- Other values for known settings, and an output. -/
def upperLayer : Metadata where
  config := some [("limit", .ofNat 9), ("stop", .bool true)]
  output := some ⟨some "json", none⟩
  ext := some []

/-- Three layers are put together in two ways; the settings keep the order in which they came. -/
theorem layer_collapses_three :
    (plainLayer.layer middleLayer).layer upperLayer =
        plainLayer.layer (middleLayer.layer upperLayer) ∧
      ((plainLayer.layer middleLayer).layer upperLayer).config =
        some [("temperature", .ofNat 1), ("limit", .ofNat 9), ("stop", .bool true)] ∧
      [middleLayer, upperLayer, upperLayer].foldl layer plainLayer =
        [middleLayer, upperLayer].foldl layer plainLayer := by
  have lower : plainLayer.AllKeyed :=
    ⟨⟨isMap_some (by decide), isMap_some (by decide)⟩, isMap_some (by decide), nofun⟩
  have keyed : middleLayer.AllKeyed := ⟨⟨isMap_some (by decide), nofun⟩, nofun, nofun⟩
  have upper : upperLayer.AllKeyed :=
    ⟨⟨isMap_some (by decide), nofun⟩, isMap_some List.nodup_nil, nofun⟩
  obtain ⟨-, assoc, -, -, -, groups⟩ := layer_collapses lower keyed
  refine ⟨assoc upperLayer, rfl, ?_⟩
  have collapsed := groups [[middleLayer], [upperLayer, upperLayer]] (by simp [keyed, upper])
  simpa [empty_layer, layer_self upper] using collapsed

end Metadata

end Promptry
