import Mathlib.Data.List.Nodup
import Promptry.Table

/-!
Tables with distinct keys. Setting and dropping entries keeps the keys distinct; setting all entries
of a table, in a table whose keys it begins with, gives that table, so that merging twice is merging
once. Tables may be merged in any grouping. Main statements: `nodup_keys_insert`, `get?_merge`,
`merge_of_covers`, `merge_merge` and `merge_assoc`.
-/

namespace Promptry

namespace Table

variable {α : Type} {t : Table α} {key : String} {value : α}

theorem mem_of_get? (here : t.get? key = some value) : (key, value) ∈ t := by
  induction t with
  | nil => cases here
  | cons entry rest ih =>
    obtain ⟨k, v⟩ := entry
    rw [get?] at here
    split at here
    · next same =>
      cases here
      exact same ▸ List.mem_cons_self
    · exact List.mem_cons_of_mem _ (ih here)

/-- What stands in a table without repeated keys is found. -/
theorem get?_of_mem (nodup : t.keys.Nodup) (mem : (key, value) ∈ t) : t.get? key = some value := by
  induction t with
  | nil => cases mem
  | cons entry rest ih =>
    obtain ⟨k, v⟩ := entry
    obtain ⟨new, nodup⟩ := List.nodup_cons.mp nodup
    rw [get?]
    rcases List.mem_cons.mp mem with first | mem
    · cases first
      exact if_pos rfl
    · rw [if_neg fun same => new (List.mem_map.mpr ⟨_, mem, same.symm⟩), ih nodup mem]

theorem get?_eq_some_iff (nodup : t.keys.Nodup) : t.get? key = some value ↔ (key, value) ∈ t :=
  ⟨mem_of_get?, get?_of_mem nodup⟩

/-- The order of the entries does not count when one is looked up. -/
theorem perm_of_get? {t' : Table α} (nodup : t.keys.Nodup) (nodup' : t'.keys.Nodup)
    (same : ∀ key value, t.get? key = some value ↔ t'.get? key = some value) : t.Perm t' := by
  refine (List.perm_ext_iff_of_nodup (.of_map _ nodup) (.of_map _ nodup')).mpr ?_
  rintro ⟨key, value⟩
  rw [← get?_eq_some_iff nodup, ← get?_eq_some_iff nodup', same]

/-- An entry that is set to what it is changes nothing. -/
theorem insert_of_get? (here : t.get? key = some value) : t.insert key value = t := by
  induction t with
  | nil => cases here
  | cons entry rest ih =>
    obtain ⟨k, v⟩ := entry
    rw [get?] at here
    rw [insert]
    split at here
    · next same =>
      cases here
      rw [if_pos same]
    · next other => rw [if_neg other, ih here]

theorem mem_keys_of_get? (here : t.get? key = some value) : key ∈ t.keys :=
  List.mem_map.mpr ⟨_, mem_of_get? here, rfl⟩

theorem mem_of_mem_insert {entry : String × α} (mem : entry ∈ t.insert key value) :
    entry ∈ t ∨ entry = (key, value) := by
  induction t with
  | nil => exact .inr (List.mem_singleton.mp mem)
  | cons first rest ih =>
    obtain ⟨k, v⟩ := first
    rw [insert] at mem
    split at mem
    · next same =>
      subst same
      exact (List.mem_cons.mp mem).symm.imp_left (List.mem_cons_of_mem _)
    · rcases List.mem_cons.mp mem with rfl | mem
      · exact .inl List.mem_cons_self
      · exact (ih mem).imp_left (List.mem_cons_of_mem _)

theorem nodup_keys_insert (nodup : t.keys.Nodup) (key : String) (value : α) :
    (t.insert key value).keys.Nodup := by
  rw [keys_insert]
  split
  · exact nodup
  · next new =>
    rw [← List.concat_eq_append, List.nodup_concat]
    exact ⟨new, nodup⟩

theorem nodup_keys_erase (nodup : t.keys.Nodup) (key : String) : (t.erase key).keys.Nodup :=
  nodup.sublist (List.filter_sublist.map _)

theorem get?_erase_of_ne {other : String} (ne : other ≠ key) :
    (t.erase key).get? other = t.get? other := by
  induction t with
  | nil => rfl
  | cons entry rest ih =>
    obtain ⟨k, v⟩ := entry
    by_cases same : k = key
    · rw [erase, List.filter_cons_of_neg (by simp [same]), get?, if_neg (same ▸ ne.symm)]
      exact ih
    · rw [erase, List.filter_cons_of_pos (by simpa using same), get?, get?]
      split
      · rfl
      · exact ih

/-- Dropping the entries of a key undoes setting one. -/
theorem erase_insert_self (t : Table α) (key : String) (value : α) :
    (t.insert key value).erase key = t.erase key := by
  induction t with
  | nil => simp [insert, erase]
  | cons entry rest ih =>
    obtain ⟨k, v⟩ := entry
    rw [insert]
    split
    · next same => simp [erase, same]
    · next other =>
      rw [erase, erase, List.filter_cons_of_pos (by simpa using other),
        List.filter_cons_of_pos (by simpa using other)]
      exact congrArg _ ih

/-- An entry behind entries with other keys is found. -/
theorem get?_append_of_not_mem (new : key ∉ t.keys) (value : α) :
    get? (t ++ [(key, value)]) key = some value := by
  induction t with
  | nil => simp [get?]
  | cons entry rest ih =>
    obtain ⟨k, v⟩ := entry
    rw [keys, List.map_cons, List.mem_cons, not_or] at new
    rw [List.cons_append, get?, if_neg (Ne.symm new.1)]
    exact ih new.2

/-! ### Merging -/

theorem merge_cons (base : Table α) (entry : String × α) (top : Table α) :
    merge base (entry :: top) = merge (base.insert entry.1 entry.2) top := rfl

theorem nodup_keys_merge {base : Table α} (nodup : base.keys.Nodup) (top : Table α) :
    (merge base top).keys.Nodup := by
  induction top generalizing base with
  | nil => exact nodup
  | cons entry top ih => exact ih (nodup_keys_insert nodup entry.1 entry.2)

theorem keys_insert_covers (t : Table α) (key : String) (value : α) :
    t.keys <+: (t.insert key value).keys := by
  rw [keys_insert]
  split
  · exact List.prefix_rfl
  · exact List.prefix_append _ _

/-- The keys of the lower table come first. -/
theorem keys_merge_covers (base top : Table α) : base.keys <+: (merge base top).keys := by
  induction top generalizing base with
  | nil => exact List.prefix_rfl
  | cons entry top ih => exact (keys_insert_covers base entry.1 entry.2).trans (ih _)

theorem insert_append_of_not_mem {front : Table α} (new : key ∉ front.keys) (rest : Table α)
    (value : α) : insert (front ++ rest) key value = front ++ insert rest key value := by
  induction front with
  | nil => rfl
  | cons entry front ih =>
    obtain ⟨k, v⟩ := entry
    rw [keys, List.map_cons, List.mem_cons, not_or] at new
    rw [List.cons_append, insert, if_neg (Ne.symm new.1), ih new.2, List.cons_append]

/-- Behind entries with other keys, a table takes the place of one whose keys it begins with. -/
theorem merge_append_of_covers {front base top : Table α} (nodup : (front ++ top).keys.Nodup)
    (covers : base.keys <+: top.keys) : merge (front ++ base) top = front ++ top := by
  induction top generalizing front base with
  | nil =>
    have empty : base = [] := List.map_eq_nil_iff.mp (List.prefix_nil.mp covers)
    rw [empty]
    rfl
  | cons entry top ih =>
    obtain ⟨k, v⟩ := entry
    have new : k ∉ front.keys := by
      rw [keys, List.map_append, List.map_cons] at nodup
      exact fun mem => List.disjoint_of_nodup_append nodup mem List.mem_cons_self
    have nodup' : ((front ++ [(k, v)]) ++ top).keys.Nodup := by
      rw [List.append_assoc]
      exact nodup
    -- the entry goes to the end, or into the place of the one with its key
    have placed : ∃ rest : Table α, insert base k v = (k, v) :: rest ∧ rest.keys <+: keys top := by
      cases base with
      | nil => exact ⟨[], rfl, List.nil_prefix⟩
      | cons old base =>
        obtain ⟨k', w⟩ := old
        have covers : k' :: keys base <+: k :: keys top := covers
        obtain ⟨rfl, covers'⟩ := List.cons_prefix_cons.mp covers
        exact ⟨base, by rw [insert, if_pos rfl], covers'⟩
    obtain ⟨rest, inserted, covers'⟩ := placed
    rw [merge_cons, insert_append_of_not_mem new, inserted, List.append_cons, ih nodup' covers',
      List.append_assoc, List.singleton_append]

/-- Merging keeps what the upper table has, and else what the lower one has. -/
theorem get?_merge {top : Table α} (nodup : top.keys.Nodup) (base : Table α) (key : String) :
    (merge base top).get? key = (top.get? key).or (base.get? key) := by
  induction top generalizing base with
  | nil => rfl
  | cons entry top ih =>
    obtain ⟨k, v⟩ := entry
    obtain ⟨new, rest⟩ := List.nodup_cons.mp nodup
    rw [merge_cons, ih rest, get?]
    by_cases same : k = key
    · subst same
      rw [(get?_eq_none_iff top k).mpr new, get?_insert_self, if_pos rfl]
      rfl
    · rw [get?_insert_of_ne (Ne.symm same), if_neg same]

/-- A table takes the place of one whose keys it begins with. -/
theorem merge_of_covers {base top : Table α} (nodup : top.keys.Nodup)
    (covers : base.keys <+: top.keys) : merge base top = top := by
  have all : merge ([] ++ base) top = [] ++ top := merge_append_of_covers nodup covers
  exact all

/-- What was merged into a table makes no difference to it any more. -/
theorem merge_merge {base : Table α} (nodup : base.keys.Nodup) (top : Table α) :
    merge base (merge base top) = merge base top :=
  merge_of_covers (nodup_keys_merge nodup top) (keys_merge_covers base top)

/-! ### Merging in any grouping -/

theorem mem_keys_insert_self (t : Table α) (key : String) (value : α) :
    key ∈ (t.insert key value).keys :=
  mem_keys_of_get? (get?_insert_self t key value)

theorem mem_keys_insert {other : String} (here : other ∈ t.keys) (key : String) (value : α) :
    other ∈ (t.insert key value).keys :=
  (keys_insert_covers t key value).subset here

/-- Of two values set under one key the later one is left. -/
theorem insert_insert_self (t : Table α) (key : String) (value value' : α) :
    (t.insert key value).insert key value' = t.insert key value' := by
  induction t with
  | nil => simp [insert]
  | cons entry rest ih =>
    obtain ⟨k, v⟩ := entry
    by_cases same : k = key
    · simp [insert, same]
    · simp [insert, same, ih]

/-- An entry that keeps its place may be set before or after another one. -/
theorem insert_insert_of_mem {other : String} (here : key ∈ t.keys) (ne : other ≠ key)
    (value value' : α) :
    (t.insert other value').insert key value = (t.insert key value).insert other value' := by
  induction t with
  | nil => cases here
  | cons entry rest ih =>
    obtain ⟨k, v⟩ := entry
    by_cases same : k = key
    · subst same
      simp [insert, Ne.symm ne]
    · have behind : key ∈ keys rest := by
        rcases List.mem_cons.mp here with front | behind
        · exact absurd front.symm same
        · exact behind
      by_cases same' : k = other
      · simp [insert, same', ne]
      · simp [insert, same, same', ih behind]

theorem merge_insert_of_not_mem {base top : Table α} (here : key ∈ base.keys)
    (new : key ∉ top.keys) (value : α) :
    merge (base.insert key value) top = (merge base top).insert key value := by
  induction top generalizing base with
  | nil => rfl
  | cons entry top ih =>
    obtain ⟨k, v⟩ := entry
    rw [keys, List.map_cons, List.mem_cons, not_or] at new
    rw [merge_cons, merge_cons, ← insert_insert_of_mem here (Ne.symm new.1),
      ih (mem_keys_insert here k v) new.2]

/-- Setting an entry of the upper table is setting it in both. -/
theorem merge_insert {top : Table α} (nodup : top.keys.Nodup) (base : Table α) (key : String)
    (value : α) : merge base (top.insert key value) = (merge base top).insert key value := by
  induction top generalizing base with
  | nil => rfl
  | cons entry top ih =>
    obtain ⟨k, v⟩ := entry
    obtain ⟨new, rest⟩ := List.nodup_cons.mp nodup
    rw [insert]
    split
    · next same =>
      subst same
      rw [merge_cons, merge_cons, ← merge_insert_of_not_mem (mem_keys_insert_self base k v) new,
        insert_insert_self]
    · rw [merge_cons, merge_cons, ih rest]

/-- Tables may be merged in any grouping. -/
theorem merge_assoc {middle : Table α} (nodup : middle.keys.Nodup) (base top : Table α) :
    merge (merge base middle) top = merge base (merge middle top) := by
  induction top generalizing middle with
  | nil => rfl
  | cons entry top ih =>
    rw [merge_cons, merge_cons, ← merge_insert nodup, ih (nodup_keys_insert nodup _ _)]

end Table

end Promptry
