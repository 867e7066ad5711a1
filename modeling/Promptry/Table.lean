/-!
Tables: entries under texts, in the order in which their keys first appeared. Main statements:
`Table.get?_insert_self`, `Table.get?_insert_of_ne` and `Table.keys_insert`.
-/

namespace Promptry

/-- Entries under texts, in order. -/
abbrev Table (α : Type) := List (String × α)

namespace Table

variable {α : Type}

/-- The value of the first entry with the key. -/
def get? (t : Table α) (key : String) : Option α :=
  match t with
  | [] => none
  | (k, v) :: rest => if k = key then some v else get? rest key

def contains (t : Table α) (key : String) : Bool := (t.get? key).isSome

def keys (t : Table α) : List String := t.map (·.1)

/-- Sets an entry: in its old place if the key is there, else at the end. -/
def insert (t : Table α) (key : String) (value : α) : Table α :=
  match t with
  | [] => [(key, value)]
  | (k, v) :: rest => if k = key then (k, value) :: rest else (k, v) :: insert rest key value

/-- Sets all entries of `top`, in their order. -/
def merge (base top : Table α) : Table α := top.foldl (fun t e => t.insert e.1 e.2) base

/-- The table of a list of entries: the last entry of a key wins, in the place of the first. -/
def ofEntries (entries : List (String × α)) : Table α := merge [] entries

@[simp] theorem get?_nil (key : String) : get? ([] : Table α) key = none := rfl

theorem get?_insert_self (t : Table α) (key : String) (value : α) :
    (t.insert key value).get? key = some value := by
  induction t with
  | nil => simp [insert, get?]
  | cons e rest ih =>
    obtain ⟨k, v⟩ := e
    by_cases h : k = key <;> simp [insert, get?, h, ih]

theorem get?_insert_of_ne {key other : String} (h : other ≠ key) (t : Table α) (value : α) :
    (t.insert key value).get? other = t.get? other := by
  induction t with
  | nil => simp [insert, get?, Ne.symm h]
  | cons e rest ih =>
    obtain ⟨k, v⟩ := e
    by_cases hk : k = key
    · subst hk
      simp [insert, get?, Ne.symm h]
    · simp only [insert, if_neg hk, get?]
      by_cases ho : k = other
      · rw [if_pos ho, if_pos ho]
      · rw [if_neg ho, if_neg ho, ih]

theorem get?_eq_none_iff (t : Table α) (key : String) : t.get? key = none ↔ key ∉ t.keys := by
  induction t with
  | nil => simp [keys]
  | cons e rest ih =>
    obtain ⟨k, v⟩ := e
    by_cases h : k = key
    · simp [get?, keys, h]
    · simp only [get?, if_neg h, ih, keys, List.map_cons, List.mem_cons, not_or]
      exact ⟨fun hr => ⟨Ne.symm h, hr⟩, fun hr => hr.2⟩

/-- A new key comes last; an old one keeps its place. -/
theorem keys_insert (t : Table α) (key : String) (value : α) :
    (t.insert key value).keys = if key ∈ t.keys then t.keys else t.keys ++ [key] := by
  induction t with
  | nil => simp [insert, keys]
  | cons e rest ih =>
    obtain ⟨k, v⟩ := e
    by_cases h : k = key
    · simp [insert, keys, h]
    · simp only [insert, if_neg h, keys, List.map_cons, List.mem_cons] at ih ⊢
      rw [ih]
      by_cases hm : key ∈ rest.map (·.1)
      · simp [hm]
      · simp [hm, Ne.symm h]

/-- Drops the entries of a key. -/
def erase (t : Table α) (key : String) : Table α := t.filter fun e => e.1 != key

theorem get?_erase_self (t : Table α) (key : String) : (t.erase key).get? key = none := by
  rw [get?_eq_none_iff]
  simp [erase, keys]

end Table

end Promptry
