import Promptry.Engine.Basic
import Promptry.Proofs.Table

/-!
Configurations of models are maps. Those that settings are read with have no key twice, and putting
settings over those of an engine keeps it that way. Main statements: `distinct_ofText?` and
`DistinctConfigs.withSettings`.
-/

namespace Promptry

namespace Settings

open Yaml
open Yaml.Value (Following)

/-- No key is twice in one of the configurations. -/
def Distinct (configs : ModelConfigs) : Prop := ∀ c ∈ configs, (Fields.keys c.2).Nodup

theorem Distinct.insert {configs : ModelConfigs} (distinct : Distinct configs) (name : String)
    {fs : Fields} (nodup : (Fields.keys fs).Nodup) : Distinct (Table.insert configs name fs) := by
  intro c mem
  rcases Table.mem_of_mem_insert mem with old | rfl
  · exact distinct c old
  · exact nodup

theorem Distinct.merge {configs top : ModelConfigs} (distinct : Distinct configs)
    (distinct' : Distinct top) : Distinct (Table.merge configs top) := by
  induction top generalizing configs with
  | nil => exact distinct
  | cons c top ih =>
    obtain ⟨nodup, rest⟩ := List.forall_mem_cons.mp distinct'
    exact ih (distinct.insert c.1 nodup) rest

/-! ### Reading -/

section

variable {α β : Type} {holds : α → Prop} {holds' : β → Prop}

/-- All that a reading yields has the property. -/
def Yields (m : Following α) (holds : α → Prop) : Prop :=
  ∀ left a left', m.run left = some (a, left') → holds a

theorem yields_pure {a : α} (held : holds a) : Yields (pure a) holds := by
  rintro left _ _ ⟨⟩
  exact held

theorem yields_failure : Yields (failure : Following α) holds := nofun

theorem yields_true (m : Following α) : Yields m fun _ => True := fun _ _ _ _ => trivial

theorem Yields.bind {m : Following α} {f : α → Following β} (first : Yields m holds)
    (next : ∀ a, holds a → Yields (f a) holds') : Yields (m >>= f) holds' := by
  intro left b left' here
  rw [StateT.run_bind] at here
  obtain ⟨⟨a, middle⟩, there, rest⟩ := Option.bind_eq_some_iff.mp here
  exact next a (first left a middle there) middle b left' rest

/-- Behind a reading of which nothing matters. -/
theorem yields_behind (m : Following α) {f : α → Following β} (next : ∀ a, Yields (f a) holds') :
    Yields (m >>= f) holds' := (yields_true m).bind fun a _ => next a

theorem yields_foldlM {γ : Type} {step : α → γ → Following α}
    (steps : ∀ a x, holds a → Yields (step a x) holds) {a : α} (held : holds a) (xs : List γ) :
    Yields (xs.foldlM step a) holds := by
  induction xs generalizing a with
  | nil => exact yields_pure held
  | cons x xs ih =>
    rw [List.foldlM_cons]
    exact (steps a x held).bind fun a' held' => ih held'

end

variable (d : Yaml.Document) (n : Node)

theorem yields_config : Yields (config d n) fun fs => (Fields.keys fs).Nodup := by
  refine yields_behind _ fun _ => yields_behind _ fun es => yields_pure ?_
  have empty : (Table.keys ([] : Fields)).Nodup := List.nodup_nil
  exact Table.nodup_keys_merge empty es

theorem yields_configs : Yields (configs d n) Distinct := by
  refine yields_behind _ fun es => yields_foldlM (fun configs e distinct => ?_) nofun es
  refine yields_behind _ fun key => (yields_config d e.2).bind fun fs nodup => ?_
  exact yields_pure (distinct.insert key nodup)

theorem yields_readEntries (seen : List String) {s : Settings} (distinct : Distinct s.modelConfigs)
    (es : List (Node × Node)) :
    Yields (readEntries d seen s es) fun s => Distinct s.modelConfigs := by
  induction es generalizing seen s with
  | nil => exact yields_pure distinct
  | cons e es ih =>
    obtain ⟨k, v⟩ := e
    rw [readEntries]
    refine yields_behind _ fun key => ?_
    split
    · exact yields_failure
    · split
      · exact yields_behind _ fun model => ih _ distinct
      · exact (yields_configs d v).bind fun configs distinct => ih _ distinct
      · exact yields_behind _ fun strict => ih _ distinct
      · exact ih _ distinct

/-- Settings are read with configurations that are maps. -/
theorem distinct_ofText? {source : String} {s : Settings} (read : ofText? source = some s) :
    Distinct s.modelConfigs := by
  obtain ⟨d, -, here⟩ := Option.bind_eq_some_iff.mp read
  cases root : d.root with
  | none =>
    rw [root] at here
    cases here
    exact nofun
  | some n =>
    rw [root] at here
    obtain ⟨⟨s', left⟩, there, same⟩ := Option.map_eq_some_iff.mp here
    have none : Distinct ({} : Settings).modelConfigs := nofun
    have yields :
        Yields (do readEntries d [] {} (← entries d n)) fun s => Distinct s.modelConfigs :=
      yields_behind _ fun es => yields_readEntries d [] none es
    exact same ▸ yields _ s' left there

end Settings

namespace Engine

/-- The configurations of an engine's models are maps. -/
def DistinctConfigs (e : Engine) : Prop := Settings.Distinct e.modelConfigs

theorem DistinctConfigs.withSettings {e : Engine} (distinct : e.DistinctConfigs) {source : String}
    {s : Settings} (read : Settings.ofText? source = some s) :
    (e.withSettings s).DistinctConfigs := distinct.merge (Settings.distinct_ofText? read)

end Engine

end Promptry
