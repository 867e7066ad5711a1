import Promptry.Engine.Partials
import Promptry.Proofs.Store.Files
import Promptry.Proofs.Table

/-!
Where partials come from, and what registering one changes. A partial comes from the table of the
resolver or from a file of the store, so that no more can be supplied than these have entries. Main
statements: `supplies_iff`, `length_le_supplyBound` and `hasPartial_of_definePartial`.
-/

namespace Promptry.Engine

variable {e e' : Engine}

/-! ### Where partials are looked for -/

/-- Both engines look for partials in the same places, and take the same view of those that are not
found. -/
structure SameSources (e e' : Engine) : Prop where
  resolver : e'.partialResolver = e.partialResolver
  store : e'.store = e.store
  strict : e'.strict = e.strict

namespace SameSources

theorem refl (e : Engine) : SameSources e e := ⟨rfl, rfl, rfl⟩

theorem trans {e₁ e₂ e₃ : Engine} (first : SameSources e₁ e₂) (second : SameSources e₂ e₃) :
    SameSources e₁ e₃ :=
  ⟨second.resolver.trans first.resolver, second.store.trans first.store,
    second.strict.trans first.strict⟩

theorem partialSource? (same : SameSources e e') : e'.partialSource? = e.partialSource? := by
  funext name
  rw [Engine.partialSource?, resolvedPartial?, storedPartial?, same.resolver, same.store]
  rfl

theorem partialCalls (same : SameSources e e') : e'.partialCalls = e.partialCalls := by
  funext name
  rw [Engine.partialCalls, same.resolver]
  rfl

end SameSources

variable {name source : String}

/-- The source that a partial is supplied with: that of the resolver, or if it has none or fails,
that of the store. -/
inductive Supplies (e : Engine) (name source : String) : Prop where
  | resolver {table : Table (Lookup String)} (isTable : e.partialResolver = some table)
      (found : Table.get? table name = some (.found source))
  | store {d : Store.Directory} {p : StoredPrompt}
      (unresolved : ∀ table, e.partialResolver = some table →
        ∀ source, Table.get? table name ≠ some (.found source))
      (isStore : e.store = some d) (loads : d.load .part name none = .ok (some p))
      (isSource : p.source = source)

theorem resolvedPartial?_eq_some_iff : e.resolvedPartial? name = some source ↔
    ∃ table, e.partialResolver = some table ∧ Table.get? table name = some (.found source) := by
  unfold resolvedPartial?
  cases e.partialResolver with
  | none => simp
  | some table =>
    rw [Option.bind_some]
    cases answer : Table.get? table name with
    | none => simp [answer]
    | some lookup => cases lookup <;> simp [answer, Lookup.found?]

theorem storedPartial?_eq_some_iff : e.storedPartial? name = some source ↔
    ∃ d p, e.store = some d ∧ d.load .part name none = .ok (some p) ∧ p.source = source := by
  constructor
  · intro stored
    cases isStore : e.store with
    | none =>
      rw [storedPartial?, isStore] at stored
      cases stored
    | some d =>
      simp only [storedPartial?, isStore] at stored
      split at stored
      · next p loads => exact ⟨d, p, rfl, loads, Option.some.inj stored⟩
      · cases stored
  · rintro ⟨d, p, isStore, loads, rfl⟩
    simp only [storedPartial?, isStore, loads]

theorem supplies_iff : e.Supplies name source ↔ e.partialSource? name = some source := by
  constructor
  · intro supplies
    cases supplies with
    | resolver isTable found =>
      rw [partialSource?, resolvedPartial?_eq_some_iff.mpr ⟨_, isTable, found⟩]
    | store unresolved isStore loads isSource =>
      have missed : e.resolvedPartial? name = none := by
        rw [Option.eq_none_iff_forall_ne_some]
        intro other resolved
        obtain ⟨table, isTable, found⟩ := resolvedPartial?_eq_some_iff.mp resolved
        exact unresolved table isTable other found
      rw [partialSource?, missed]
      exact storedPartial?_eq_some_iff.mpr ⟨_, _, isStore, loads, isSource⟩
  · intro supplied
    rw [partialSource?] at supplied
    split at supplied
    · next other resolved =>
      cases supplied
      obtain ⟨table, isTable, found⟩ := resolvedPartial?_eq_some_iff.mp resolved
      exact .resolver isTable found
    · next missed =>
      obtain ⟨d, p, isStore, loads, isSource⟩ := storedPartial?_eq_some_iff.mp supplied
      refine .store ?_ isStore loads isSource
      intro table isTable other found
      rw [resolvedPartial?_eq_some_iff.mpr ⟨table, isTable, found⟩] at missed
      cases missed

theorem mem_keys_of_resolvedPartial? {table : Table (Lookup String)}
    (isTable : e.partialResolver = some table) (resolved : (e.resolvedPartial? name).isSome) :
    name ∈ table.keys := by
  obtain ⟨source, here⟩ := Option.isSome_iff_exists.mp resolved
  obtain ⟨table', isTable', found⟩ := resolvedPartial?_eq_some_iff.mp here
  cases isTable.symm.trans isTable'
  exact List.mem_map_of_mem (Table.mem_of_get? found)

theorem loads_of_storedPartial? {d : Store.Directory} (isStore : e.store = some d)
    (stored : (e.storedPartial? name).isSome) : ∃ p, d.load .part name none = .ok (some p) := by
  obtain ⟨source, here⟩ := Option.isSome_iff_exists.mp stored
  obtain ⟨d', p, isStore', loads, -⟩ := storedPartial?_eq_some_iff.mp here
  cases isStore.symm.trans isStore'
  exact ⟨p, loads⟩

/-- No more partials can be supplied than the resolver and the store have entries. -/
theorem length_le_supplyBound {names : List String} (nodup : names.Nodup)
    (supplied : ∀ name ∈ names, (e.partialSource? name).isSome) :
    names.length ≤ e.supplyBound := by
  -- The names that the resolver knows are counted apart from those left to the store.
  let isResolved (name : String) : Bool := (e.resolvedPartial? name).isSome
  rw [supplyBound, List.length_eq_length_filter_add isResolved]
  apply Nat.add_le_add
  · cases isTable : e.partialResolver with
    | none =>
      have none_resolved : names.filter isResolved = [] := by
        simp [isResolved, resolvedPartial?, isTable]
      rw [none_resolved]
      exact Nat.zero_le _
    | some table =>
      have sub : names.filter isResolved ⊆ table.keys := fun name mem =>
        mem_keys_of_resolvedPartial? isTable (List.mem_filter.mp mem).2
      have bound := ((nodup.filter _).subperm sub).length_le
      rwa [Table.keys, List.length_map] at bound
  · have kept : ∀ name ∈ names.filter fun name => !isResolved name,
        (e.storedPartial? name).isSome := by
      intro name mem
      obtain ⟨mem, unresolved⟩ := List.mem_filter.mp mem
      have here := supplied name mem
      rw [Engine.partialSource?] at here
      split at here
      · next source resolved => simp [isResolved, resolved] at unresolved
      · exact here
    cases isStore : e.store with
    | none =>
      have none_stored : (names.filter fun name => !isResolved name) = [] :=
        List.eq_nil_iff_forall_not_mem.mpr fun name mem => by
          simpa [storedPartial?, isStore] using kept name mem
      rw [none_stored]
      exact Nat.zero_le _
    | some d =>
      exact Store.Directory.length_le_fileCount (nodup.filter _) fun name mem =>
        loads_of_storedPartial? isStore (kept name mem)

/-! ### Registering a partial -/

/-- A partial that is registered stands in the library as it compiles. -/
theorem definePartial_eq_ok_iff : e.definePartial name source = .ok e' ↔
    ∃ els, Template.compile true (Template.DataVariables.redirectAll source) = .ok els ∧
      e' = { e with library.partials := Table.insert e.library.partials name els } := by
  unfold definePartial
  cases Template.compile true (Template.DataVariables.redirectAll source) with
  | error err => simp
  | ok els => simp [eq_comm]

theorem exists_definePartial (e : Engine) (name source : String)
    (compiles : (Template.compile true (Template.DataVariables.redirectAll source)).isOk = true) :
    ∃ e', e.definePartial name source = .ok e' := by
  cases compiled : Template.compile true (Template.DataVariables.redirectAll source) with
  | error err => rw [compiled] at compiles; cases compiles
  | ok els => exact ⟨_, definePartial_eq_ok_iff.mpr ⟨els, compiled, rfl⟩⟩

/-- Registering a partial fails only for what it holds. -/
theorem definePartial_error {err : PromptError}
    (failed : e.definePartial name source = .error err) : ∃ cause, err = .compile cause := by
  unfold definePartial at failed
  split at failed
  · cases failed
  · next cause _ => cases failed; exact ⟨cause, rfl⟩

/-- The engines differ in their partials only. -/
def DifferInPartials (e e' : Engine) : Prop :=
  ∃ partials, e' = { e with library.partials := partials }

namespace DifferInPartials

theorem refl (e : Engine) : DifferInPartials e e := ⟨e.library.partials, rfl⟩

theorem trans {e₁ e₂ e₃ : Engine} (first : DifferInPartials e₁ e₂)
    (second : DifferInPartials e₂ e₃) : DifferInPartials e₁ e₃ := by
  obtain ⟨_, rfl⟩ := first
  obtain ⟨partials, rfl⟩ := second
  exact ⟨partials, rfl⟩

theorem sameSources (differ : DifferInPartials e e') : SameSources e e' := by
  obtain ⟨_, rfl⟩ := differ
  exact ⟨rfl, rfl, rfl⟩

end DifferInPartials

theorem differInPartials_of_definePartial (defined : e.definePartial name source = .ok e') :
    DifferInPartials e e' := by
  obtain ⟨els, -, rfl⟩ := definePartial_eq_ok_iff.mp defined
  exact ⟨_, rfl⟩

theorem sameSources_of_definePartial (defined : e.definePartial name source = .ok e') :
    SameSources e e' := (differInPartials_of_definePartial defined).sameSources

/-- Beside the partials that were there, only the new one is. -/
theorem hasPartial_of_definePartial (defined : e.definePartial name source = .ok e')
    (other : String) : e'.hasPartial other = true ↔ other = name ∨ e.hasPartial other = true := by
  obtain ⟨els, -, rfl⟩ := definePartial_eq_ok_iff.mp defined
  by_cases same : other = name
  · subst same
    simp [hasPartial, Table.contains, Table.get?_insert_self]
  · simp [hasPartial, Table.contains, Table.get?_insert_of_ne same, same]

end Promptry.Engine
