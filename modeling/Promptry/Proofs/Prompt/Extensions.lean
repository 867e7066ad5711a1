import Mathlib.Data.List.TakeWhile
import Promptry.Prompt.Config
import Promptry.Proofs.Codec.Prompt
import Promptry.Proofs.Prompt.Layering

/-!
Settings whose keys are not reserved. Where no key is the name space of another one, each of them
has its value in the extensions, in its name space if it has a dot, and nothing else is there, in
whatever order the settings come; the others are put into the metadata in any order. Main
statements: `placed_extensions`, `Placed.reordered` and `ofConfig_loses_nothing`.
-/

namespace Promptry.Metadata

variable {fields fields' ext ext' : Fields} {key space child : String} {v w : Json}

/-! ### Keys with dots -/

theorem splitKey?_eq_none_iff : splitKey? key = none ↔ '.' ∉ key.toList := by
  have whole := List.dropWhile_eq_nil_iff (p := (· != '.')) (l := key.toList.reverse)
  simp only [List.mem_reverse, bne_iff_ne, ne_eq] at whole
  rw [splitKey?]
  split
  · next dot =>
    rw [dot] at whole
    refine iff_of_false nofun fun plain => ?_
    exact absurd (whole.mpr fun c mem same => plain (same ▸ mem)) (List.cons_ne_nil _ _)
  · next none =>
    exact iff_of_true rfl fun mem => whole.mp none '.' mem rfl

/-- A key is taken apart at its last dot. -/
theorem splitKey?_eq_some_iff :
    splitKey? key = some (space, child) ↔ key = space ++ "." ++ child ∧ '.' ∉ child.toList := by
  constructor
  · intro split
    have whole := List.takeWhile_append_dropWhile (p := (· != '.')) (l := key.toList.reverse)
    have stops := List.head?_dropWhile_not (· != '.') key.toList.reverse
    rw [splitKey?] at split
    split at split
    · next dot front behind =>
      cases split
      rw [behind] at whole stops
      obtain rfl : dot = '.' := by simpa using stops
      refine ⟨String.toList_injective ?_, fun mem => ?_⟩
      · have spelled := congrArg List.reverse whole
        rw [List.reverse_reverse] at spelled
        exact spelled.symm.trans (by simp)
      · rw [String.toList_ofList, List.mem_reverse] at mem
        exact absurd (List.mem_takeWhile_imp mem) (by decide)
    · cases split
  · rintro ⟨rfl, plain⟩
    have plain' : ∀ c ∈ child.toList.reverse, (c != '.') = true := fun c mem => by
      simpa using fun same : c = '.' => plain (same ▸ List.mem_reverse.mp mem)
    have back : (space ++ "." ++ child).toList.reverse =
        child.toList.reverse ++ '.' :: space.toList.reverse := by simp
    rw [splitKey?, back, List.dropWhile_append_of_pos plain', List.takeWhile_append_of_pos plain']
    simp

/-! ### Where the fields stand -/

/-- The fields stand in the extensions where they belong, and nothing else does. -/
structure Placed (fields ext : Fields) : Prop where
  nodup : (Fields.keys ext).Nodup
  plain : ∀ ⦃key v⦄, (key, v) ∈ fields → '.' ∉ key.toList → Fields.get? ext key = some v
  spaced : ∀ ⦃space child v⦄, (space ++ "." ++ child, v) ∈ fields → '.' ∉ child.toList →
    ∃ inside, Fields.get? ext space = some (.obj inside) ∧ Fields.get? inside child = some v
  origin : ∀ ⦃key w⦄, Fields.get? ext key = some w →
    '.' ∉ key.toList ∧ (key, w) ∈ fields ∨
      ∃ inside, w = .obj inside ∧ inside ≠ [] ∧ (Fields.keys inside).Nodup ∧
        ∀ ⦃child v⦄, Fields.get? inside child = some v →
          '.' ∉ child.toList ∧ (key ++ "." ++ child, v) ∈ fields

/-- No key without a dot is the name space of another one. -/
def Apart (keys : List String) : Prop :=
  ∀ key ∈ keys, '.' ∉ key.toList → ∀ child, '.' ∉ child.toList → key ++ "." ++ child ∉ keys

theorem placed_nil : Placed [] [] := ⟨List.nodup_nil, nofun, nofun, nofun⟩

theorem Placed.nil_iff (placed : Placed fields ext) : ext = [] ↔ fields = [] := by
  constructor
  · rintro rfl
    by_contra nonempty
    obtain ⟨⟨key, v⟩, mem⟩ := List.exists_mem_of_ne_nil _ nonempty
    cases split : splitKey? key with
    | none => cases placed.plain mem (splitKey?_eq_none_iff.mp split)
    | some parts =>
      obtain ⟨rfl, plain⟩ := splitKey?_eq_some_iff.mp split
      obtain ⟨_, here, -⟩ := placed.spaced mem plain
      cases here
  · rintro rfl
    by_contra nonempty
    obtain ⟨⟨key, w⟩, mem⟩ := List.exists_mem_of_ne_nil _ nonempty
    rcases placed.origin (Table.get?_of_mem placed.nodup mem) with
      ⟨-, none⟩ | ⟨inside, -, some, nodup, all⟩
    · cases none
    · obtain ⟨⟨child, v⟩, mem⟩ := List.exists_mem_of_ne_nil _ some
      cases (all (Table.get?_of_mem nodup mem)).2

/-! ### Putting fields where they belong -/

/-- The fields in a name space, none if there is no such. -/
def inside (ext : Fields) (space : String) : Fields :=
  match Fields.get? ext space with
  | some (.obj fs) => fs
  | _ => []

theorem inside_of_get? {fs : Fields} (here : Fields.get? ext space = some (.obj fs)) :
    inside ext space = fs := by
  rw [inside, here]

theorem addExtension_dotted (plain : '.' ∉ child.toList) (ext : Fields) (v : Json) :
    addExtension ext (space ++ "." ++ child) v =
      Fields.insert ext space (.obj (Fields.insert (inside ext space) child v)) := by
  rw [addExtension, splitKey?_eq_some_iff.mpr ⟨rfl, plain⟩]
  rfl

theorem dot_mem_dotted (space child : String) : '.' ∈ (space ++ "." ++ child).toList := by simp

/-- The parts of a key with a dot are those that it was put together of. -/
theorem dotted_inj {space' child' : String} (plain : '.' ∉ child.toList)
    (plain' : '.' ∉ child'.toList) (same : space' ++ "." ++ child' = space ++ "." ++ child) :
    space' = space ∧ child' = child := by
  have split := splitKey?_eq_some_iff.mpr ⟨same.symm, plain'⟩
  rw [splitKey?_eq_some_iff.mpr ⟨rfl, plain⟩] at split
  cases split
  exact ⟨rfl, rfl⟩

theorem mem_keys {f : String × Json} (mem : f ∈ fields) : f.1 ∈ Fields.keys fields :=
  List.mem_map_of_mem mem

namespace Placed

variable (placed : Placed fields ext)
include placed

/-- What stands in a name space came from fields of it. -/
theorem inside_origin (free : '.' ∉ space.toList → space ∉ Fields.keys fields) :
    (Fields.keys (inside ext space)).Nodup ∧
      ∀ ⦃child v⦄, Fields.get? (inside ext space) child = some v →
        '.' ∉ child.toList ∧ (space ++ "." ++ child, v) ∈ fields := by
  rw [inside]
  split
  · next fs here =>
    rcases placed.origin here with ⟨plain, mem⟩ | ⟨_, same, -, nodup, all⟩
    · exact absurd (mem_keys mem) (free plain)
    · cases same
      exact ⟨nodup, all⟩
  · exact ⟨List.nodup_nil, nofun⟩

theorem add_plain (plain : '.' ∉ key.toList) (new : key ∉ Fields.keys fields)
    (free : ∀ child, '.' ∉ child.toList → key ++ "." ++ child ∉ Fields.keys fields) (v : Json) :
    Placed (fields ++ [(key, v)]) (Fields.insert ext key v) where
  nodup := Table.nodup_keys_insert placed.nodup key v
  plain key' w mem plain' := by
    rcases List.mem_append.mp mem with old | added
    · have ne : key' ≠ key := fun same => new (same ▸ mem_keys old)
      rw [Fields.get?_insert_of_ne ne]
      exact placed.plain old plain'
    · cases List.mem_singleton.mp added
      exact Fields.get?_insert_self ext key v
  spaced space child w mem plain' := by
    rcases List.mem_append.mp mem with old | added
    · have ne : space ≠ key := fun same => free child plain' (same ▸ mem_keys old)
      rw [Fields.get?_insert_of_ne ne]
      exact placed.spaced old plain'
    · cases List.mem_singleton.mp added
      exact absurd (dot_mem_dotted space child) plain
  origin key' w here := by
    by_cases same : key' = key
    · subst same
      rw [Fields.get?_insert_self] at here
      cases here
      exact .inl ⟨plain, List.mem_append_right _ (List.mem_singleton_self _)⟩
    · rw [Fields.get?_insert_of_ne same] at here
      rcases placed.origin here with ⟨plain', mem⟩ | ⟨fs, is, some, nodup, all⟩
      · exact .inl ⟨plain', List.mem_append_left _ mem⟩
      · exact .inr ⟨fs, is, some, nodup, fun _ _ found =>
          (all found).imp_right (List.mem_append_left _)⟩

theorem add_dotted (plain : '.' ∉ child.toList)
    (new : space ++ "." ++ child ∉ Fields.keys fields)
    (free : '.' ∉ space.toList → space ∉ Fields.keys fields) (v : Json) :
    Placed (fields ++ [(space ++ "." ++ child, v)])
      (Fields.insert ext space (.obj (Fields.insert (inside ext space) child v))) where
  nodup := Table.nodup_keys_insert placed.nodup space _
  plain key w mem plain' := by
    rcases List.mem_append.mp mem with old | added
    · have ne : key ≠ space := fun same => free (same ▸ plain') (same ▸ mem_keys old)
      rw [Fields.get?_insert_of_ne ne]
      exact placed.plain old plain'
    · cases List.mem_singleton.mp added
      exact absurd (dot_mem_dotted space child) plain'
  spaced space' child' w mem plain' := by
    rcases List.mem_append.mp mem with old | added
    · obtain ⟨fs, here, found⟩ := placed.spaced old plain'
      by_cases same : space' = space
      · subst same
        have ne : child' ≠ child := fun same => new (same ▸ mem_keys old)
        refine ⟨_, Fields.get?_insert_self _ _ _, ?_⟩
        rw [inside_of_get? here, Fields.get?_insert_of_ne ne]
        exact found
      · rw [Fields.get?_insert_of_ne same]
        exact ⟨fs, here, found⟩
    · obtain ⟨whole, rfl⟩ := Prod.mk.inj (List.mem_singleton.mp added)
      obtain ⟨rfl, rfl⟩ := dotted_inj plain plain' whole
      exact ⟨_, Fields.get?_insert_self _ _ _, Fields.get?_insert_self _ _ _⟩
  origin key w here := by
    by_cases same : key = space
    · subst same
      rw [Fields.get?_insert_self] at here
      cases here
      obtain ⟨nodup, all⟩ := placed.inside_origin free
      have some := Table.mem_keys_insert_self (inside ext key) child v
      refine .inr ⟨_, rfl, fun none => ?_, Table.nodup_keys_insert nodup child v, ?_⟩
      · rw [none] at some
        cases some
      · intro child' w found
        by_cases same : child' = child
        · subst same
          rw [Fields.get?_insert_self] at found
          cases found
          exact ⟨plain, List.mem_append_right _ (List.mem_singleton_self _)⟩
        · rw [Fields.get?_insert_of_ne same] at found
          exact (all found).imp_right (List.mem_append_left _)
    · rw [Fields.get?_insert_of_ne same] at here
      rcases placed.origin here with ⟨plain', mem⟩ | ⟨fs, is, some, nodup, all⟩
      · exact .inl ⟨plain', List.mem_append_left _ mem⟩
      · exact .inr ⟨fs, is, some, nodup, fun _ _ found =>
          (all found).imp_right (List.mem_append_left _)⟩

end Placed

/-- One field more, of a key that is new and apart from the others. -/
theorem Placed.add (placed : Placed fields ext) (new : key ∉ Fields.keys fields)
    (apart : Apart (Fields.keys fields ++ [key])) (v : Json) :
    Placed (fields ++ [(key, v)]) (addExtension ext key v) := by
  have last : key ∈ Fields.keys fields ++ [key] := List.mem_append_right _ List.mem_cons_self
  cases split : splitKey? key with
  | none =>
    have plain := splitKey?_eq_none_iff.mp split
    rw [addExtension_plain split]
    exact placed.add_plain plain new
      (fun child plain' mem => apart key last plain child plain' (List.mem_append_left _ mem)) v
  | some parts =>
    obtain ⟨space, child⟩ := parts
    obtain ⟨rfl, plain⟩ := splitKey?_eq_some_iff.mp split
    rw [addExtension_dotted plain]
    exact placed.add_dotted plain new
      (fun plain' mem => apart space (List.mem_append_left _ mem) plain' child plain last) v

/-- The fields of extensions, one after the other. -/
theorem placed_foldl (placed : Placed fields ext) (more : Fields)
    (distinct : (Fields.keys (fields ++ more)).Nodup)
    (apart : Apart (Fields.keys (fields ++ more))) :
    Placed (fields ++ more) (more.foldl (fun ext f => addExtension ext f.1 f.2) ext) := by
  induction more generalizing fields ext with
  | nil => rwa [List.append_nil]
  | cons f more ih =>
    rw [List.append_cons] at distinct apart ⊢
    simp only [Table.keys, List.map_append, List.map_cons, List.map_nil] at distinct apart
    have front := (List.nodup_append.mp distinct).1
    refine ih (placed.add ?_ ?_ f.2) ?_ ?_
    · exact fun mem => (List.nodup_append.mp front).2.2 _ mem _ List.mem_cons_self rfl
    · exact fun key mem plain child plain' mem' =>
        apart key (List.mem_append_left _ mem) plain child plain' (List.mem_append_left _ mem')
    · simpa [Table.keys] using distinct
    · simpa [Table.keys] using apart

/-! ### The extensions of settings -/

/-- The fields whose keys are not reserved. -/
def spare (config : Fields) : Fields := config.filter fun f => !reservedKeys.contains f.1

variable {config config' : Fields}

theorem placed_extensions (distinct : (Fields.keys config).Nodup)
    (apart : Apart (Fields.keys (spare config))) : Placed (spare config) (extensions config) :=
  placed_foldl placed_nil (spare config) (distinct.sublist (List.filter_sublist.map _)) apart

theorem apart_iff {keys : List String} :
    Apart keys ↔ ∀ key ∈ keys, splitKey? key = none →
      ∀ k ∈ keys, (splitKey? k).map Prod.fst ≠ some key := by
  constructor
  · intro apart key mem plain k mem' same
    obtain ⟨⟨key, child⟩, split, rfl⟩ := Option.map_eq_some_iff.mp same
    obtain ⟨rfl, plain'⟩ := splitKey?_eq_some_iff.mp split
    exact apart key mem (splitKey?_eq_none_iff.mp plain) child plain' mem'
  · intro apart key mem plain child plain' mem'
    refine apart key mem (splitKey?_eq_none_iff.mpr plain) _ mem' ?_
    rw [splitKey?_eq_some_iff.mpr ⟨rfl, plain'⟩]
    rfl

instance {keys : List String} : Decidable (Apart keys) := decidable_of_iff' _ apart_iff

theorem Apart.perm {keys keys' : List String} (apart : Apart keys) (perm : keys.Perm keys') :
    Apart keys' := fun key mem plain child plain' mem' =>
  apart key (perm.mem_iff.mpr mem) plain child plain' (perm.mem_iff.mpr mem')

/-- Values that are the same up to the order of an object's fields. -/
def Reordered (v w : Json) : Prop :=
  v = w ∨ ∃ fs fs', v = .obj fs ∧ w = .obj fs' ∧ fs.Perm fs'

namespace Placed

/-- Of two name spaces that hold the same fields, each has what the other one has. -/
theorem inside_subset {fs fs' : Fields} (placed' : Placed fields' ext')
    (subset : ∀ f ∈ fields, f ∈ fields') (here' : Fields.get? ext' space = some (.obj fs'))
    (all : ∀ ⦃child v⦄, Fields.get? fs child = some v →
      '.' ∉ child.toList ∧ (space ++ "." ++ child, v) ∈ fields)
    (found : Fields.get? fs child = some v) : Fields.get? fs' child = some v := by
  obtain ⟨plain, mem⟩ := all found
  obtain ⟨_, there, found'⟩ := placed'.spaced (subset _ mem) plain
  rw [here'] at there
  cases there
  exact found'

/-- What stands in the extensions stands there whatever the order of the fields, apart from the
order inside a name space. -/
theorem found (placed : Placed fields ext) (placed' : Placed fields' ext')
    (perm : fields.Perm fields') (apart : Apart (Fields.keys fields'))
    (here : Fields.get? ext key = some w) :
    ∃ w', Fields.get? ext' key = some w' ∧ Reordered w w' := by
  rcases placed.origin here with ⟨plain, mem⟩ | ⟨fs, rfl, some, nodup, all⟩
  · exact ⟨w, placed'.plain (perm.mem_iff.mp mem) plain, .inl rfl⟩
  · obtain ⟨⟨child, v⟩, mem⟩ := List.exists_mem_of_ne_nil _ some
    obtain ⟨plain, mem⟩ := all (Table.get?_of_mem nodup mem)
    have mem' := perm.mem_iff.mp mem
    obtain ⟨fs', here', -⟩ := placed'.spaced mem' plain
    refine ⟨_, here', .inr ⟨fs, fs', rfl, rfl, ?_⟩⟩
    rcases placed'.origin here' with ⟨plain', whole⟩ | ⟨_, same, -, nodup', all'⟩
    · exact absurd (mem_keys mem') (apart key (mem_keys whole) plain' child plain)
    · cases same
      exact Table.perm_of_get? nodup nodup' fun _ _ =>
        ⟨placed'.inside_subset (fun _ => perm.mem_iff.mp) here' all,
          placed.inside_subset (fun _ => perm.mem_iff.mpr) here all'⟩

/-- The order of the fields counts for nothing but the order of what they become. -/
theorem reordered (placed : Placed fields ext) (placed' : Placed fields' ext')
    (perm : fields.Perm fields') (apart : Apart (Fields.keys fields)) (key : String) :
    Option.Rel Reordered (Fields.get? ext key) (Fields.get? ext' key) := by
  have apart' : Apart (Fields.keys fields') := apart.perm (perm.map Prod.fst)
  cases here : Fields.get? ext key with
  | some w =>
    obtain ⟨w', here', same⟩ := placed.found placed' perm apart' here
    rw [here']
    exact .some same
  | none =>
    cases here' : Fields.get? ext' key with
    | none => exact .none
    | some w' =>
      obtain ⟨_, there, -⟩ := placed'.found placed perm.symm apart here'
      rw [here] at there
      cases there

end Placed

/-! ### The fields of the metadata -/

theorem reserved_known (config : Fields) :
    ∀ k ∈ Fields.keys (reserved config), k ∈ (shape false).keys := by
  have known : ∀ k ∈ reservedKeys, k ∈ (shape false).keys := by decide
  intro k mem
  obtain ⟨f, here, rfl⟩ := List.mem_map.mp mem
  exact known _ (List.contains_iff_mem.mp (List.mem_filter.mp here).2)

theorem ext_of_setInTurn {m own : Metadata}
    (known : ∀ k ∈ Fields.keys fields, k ∈ (shape false).keys)
    (absent : "ext" ∉ Fields.keys fields) (filled : (shape false).setInTurn m fields = .ok own) :
    own.ext = m.ext := by
  induction fields generalizing m with
  | nil => cases filled; rfl
  | cons f fields ih =>
    obtain ⟨isKey, known⟩ := List.forall_mem_cons.mp known
    obtain ⟨other, absent⟩ := not_or.mp fun mem => absent (List.mem_cons.mpr mem)
    rw [Shape.setInTurn_cons] at filled
    obtain ⟨_, put, filled⟩ := exists_of_bind_eq_ok filled
    have put : set false m f.1 f.2 = _ := put
    rw [set_eq_patch isKey] at put
    obtain ⟨source, -, rfl⟩ := exists_of_map_eq_ok put
    rw [ih known absent filled]
    exact if_neg (Ne.symm other)

/-- The metadata that reserved fields make up, with the rest of what the settings say. -/
def complete (config : Fields) (own : Metadata) : Metadata :=
  { own with
    ext := if (extensions config).isEmpty then none else some (extensions config)
    raw := if config.isEmpty then none else some config }

theorem getD_ext_complete (config : Fields) (own : Metadata) :
    (complete config own).ext.getD [] = extensions config := by
  cases here : extensions config <;> simp [complete, here]

theorem fieldAt?_ext_complete (config : Fields) (own : Metadata) (key : String) :
    fieldAt? (complete config own).ext key = Fields.get? (extensions config) key := by
  cases here : extensions config <;> simp [complete, here, fieldAt?]

/-- Settings without explicit extensions: the reserved ones are read, and the others are added. -/
theorem ofConfig_eq (distinct : (Fields.keys config).Nodup) (absent : "ext" ∉ Fields.keys config) :
    ofConfig config =
      ((shape false).setInTurn {} (reserved config)).map (complete config) := by
  have sub : (Fields.keys (reserved config)).Sublist (Fields.keys config) :=
    List.filter_sublist.map _
  have known := reserved_known config
  have inTurn : decode (.obj (reserved config)) = (shape false).setInTurn {} (reserved config) :=
    Shape.setAll_eq_setInTurn regular _ (distinct.sublist sub)
      (fun k mem => ⟨known k mem, List.not_mem_nil⟩) nofun
  cases config with
  | nil => rfl
  | cons f rest =>
    rw [ofConfig, if_neg (by simp), inTurn]
    cases filled : (shape false).setInTurn {} (reserved (f :: rest)) with
    | error e => rfl
    | ok own =>
      have none : own.ext = none :=
        ext_of_setInTurn known (fun mem => absent (sub.subset mem)) filled
      simp only [none, mergeFields_none_left]
      rfl

/-- Metadata says the same, but for its extensions and what it was read from. -/
def SameFields (m m' : Metadata) : Prop := { m with ext := m'.ext, raw := m'.raw } = m'

theorem sameFields_complete (config config' : Fields) (own : Metadata) :
    SameFields (complete config own) (complete config' own) := rfl

/-- Reserved fields in another order make up the same metadata. -/
theorem ofConfig_of_reserved_perm {m : Metadata} (distinct : (Fields.keys config).Nodup)
    (absent : "ext" ∉ Fields.keys config) (succeeds : ofConfig config = .ok m)
    (distinct' : (Fields.keys config').Nodup)
    (perm : (reserved config').Perm (reserved config)) :
    ∃ own, m = complete config own ∧ ofConfig config' = .ok (complete config' own) := by
  have absent' : "ext" ∉ Fields.keys config' := by
    intro mem
    obtain ⟨f, here, same⟩ := List.mem_map.mp mem
    have isReserved : f ∈ reserved config' := List.mem_filter.mpr ⟨here, by rw [same]; decide⟩
    exact absent (same ▸ mem_keys (List.mem_filter.mp (perm.mem_iff.mp isReserved)).1)
  rw [ofConfig_eq distinct absent] at succeeds
  obtain ⟨own, filled, rfl⟩ := exists_of_map_eq_ok succeeds
  have sub : (Fields.keys (reserved config)).Sublist (Fields.keys config) :=
    List.filter_sublist.map _
  refine ⟨own, rfl, ?_⟩
  rw [ofConfig_eq distinct' absent', Shape.setInTurn_perm commutes perm.symm (distinct.sublist sub)
    (reserved_known config) filled]
  rfl

/-- No setting is lost or misplaced: whatever is not reserved stands in the extensions where it
belongs, with nothing else beside it, and what the settings were is kept. The fields of the metadata
depend on the reserved settings alone, and the order of the settings counts for nothing but the
order of what is kept of them. -/
theorem ofConfig_loses_nothing {m : Metadata} (distinct : (Fields.keys config).Nodup)
    (absent : "ext" ∉ Fields.keys config) (apart : Apart (Fields.keys (spare config)))
    (succeeds : ofConfig config = .ok m) :
    Placed (spare config) (m.ext.getD []) ∧ (m.ext = none ↔ spare config = []) ∧
      m.raw = (if config.isEmpty then none else some config) ∧
      (∀ config' : Fields, (Fields.keys config').Nodup →
        (reserved config').Perm (reserved config) →
          ∃ m', ofConfig config' = .ok m' ∧ m.SameFields m') ∧
      ∀ config' : Fields, config'.Perm config →
        ∃ m', ofConfig config' = .ok m' ∧ m.SameFields m' ∧
          (∀ key, Option.Rel Reordered (fieldAt? m.ext key) (fieldAt? m'.ext key)) ∧
          Option.Rel List.Perm m.raw m'.raw := by
  have placed := placed_extensions distinct apart
  obtain ⟨own, rfl, -⟩ := ofConfig_of_reserved_perm distinct absent succeeds distinct (.refl _)
  refine ⟨?_, ?_, rfl, ?_, ?_⟩
  · rw [getD_ext_complete]
    exact placed
  · rw [← placed.nil_iff]
    cases here : extensions config <;> simp [complete, here]
  · intro config' distinct' perm
    obtain ⟨own', same, succeeds'⟩ :=
      ofConfig_of_reserved_perm distinct absent succeeds distinct' perm
    exact ⟨_, succeeds', same ▸ sameFields_complete config config' own'⟩
  · intro config' perm
    have distinct' : (Fields.keys config').Nodup := (perm.map Prod.fst).nodup_iff.mpr distinct
    obtain ⟨own', same, succeeds'⟩ :=
      ofConfig_of_reserved_perm distinct absent succeeds distinct' (perm.filter _)
    refine ⟨_, succeeds', same ▸ sameFields_complete config config' own', fun key => ?_, ?_⟩
    · rw [fieldAt?_ext_complete, fieldAt?_ext_complete]
      have apart' : Apart (Fields.keys (spare config')) := apart.perm ((perm.filter _).map _).symm
      exact placed.reordered (placed_extensions distinct' apart') (perm.filter _).symm apart key
    · cases config with
      | nil =>
        obtain rfl := perm.eq_nil
        exact .none
      | cons f rest =>
        cases config' with
        | nil => cases perm.symm.eq_nil
        | cons f' rest' => exact .some perm.symm

/-- Fields of metadata among others: with two name spaces, one of them with a dot of its own, and
with one key without a dot. -/
def mixedSettings : Fields :=
  [("a.b.temperature", .ofNat 1), ("model", .str "m"), ("a.limit", .ofNat 2), ("flag", .bool true),
    ("a.b.stop", .null), ("version", .ofNat 3)]

/-- The name spaces have what belongs to them, and the other settings may as well come first. -/
theorem ofConfig_loses_nothing_mixed :
    ∃ m, ofConfig mixedSettings = .ok m ∧
      m.ext = some [("a.b", .obj [("temperature", .ofNat 1), ("stop", .null)]),
        ("a", .obj [("limit", .ofNat 2)]), ("flag", .bool true)] ∧
      m.raw = some mixedSettings ∧ Placed (spare mixedSettings) (m.ext.getD []) ∧
      ∃ m', ofConfig mixedSettings.reverse = .ok m' ∧ m'.model = some "m" ∧
        m'.version = some "3" ∧
        ∀ key, Option.Rel Reordered (fieldAt? m.ext key) (fieldAt? m'.ext key) := by
  have distinct : (Fields.keys mixedSettings).Nodup := by decide
  have apart : Apart (Fields.keys (spare mixedSettings)) := by decide
  obtain ⟨placed, -, -, -, permuted⟩ := ofConfig_loses_nothing distinct (by decide) apart rfl
  obtain ⟨m', succeeds, same, reordered, -⟩ := permuted _ mixedSettings.reverse_perm
  exact ⟨_, rfl, rfl, rfl, placed, m', succeeds, (congrArg model same).symm,
    (congrArg version same).symm, reordered⟩

end Promptry.Metadata
