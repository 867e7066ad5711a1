import Promptry.Codec.Record
import Promptry.Proofs.Except
import Promptry.Proofs.Table

/-!
Reading records back. What is written of a record has its fields in the order of its keys, without
those that are not set, so that it is read by putting the values under their keys in turn. Main
statements: `Shape.decode_induct`, that what putting a value keeps holds of all that is read,
`Shape.setInTurn_perm`, that the order of the fields does not count, and `Shape.Fills.decode`, that
a record whose fields are read back is read back itself.
-/

namespace Promptry

section

variable {α β : Type}

/-- Whatever is read is read back from what is written of it. -/
def Recodes (decode : Decoder α) (encode : α → Json) : Prop :=
  ∀ v x, decode v = .ok x → decode (encode x) = .ok x

/-- A value that may be missing is read back from what is written of it. -/
def Kept (decode : Decoder (Option β)) (encode : β → Json) (o : Option β) : Prop :=
  ∀ y, o = some y → decode (encode y) = .ok (some y)

theorem Recodes.of_readable {decode : Decoder α} {encode : α → Json} {Readable : α → Prop}
    (reads : ∀ v x, decode v = .ok x → Readable x)
    (back : ∀ x, Readable x → decode (encode x) = .ok x) : Recodes decode encode :=
  fun v x read => back x (reads v x read)

theorem kept_none (decode : Decoder (Option β)) (encode : β → Json) : Kept decode encode none :=
  nofun

/-- A value read and then put into place. -/
theorem put_eq_ok_iff {ε : Type} {x : Except ε β} {put : β → α} {y : α} :
    (do return put (← x)) = .ok y ↔ ∃ b, x = .ok b ∧ put b = y := by
  cases x with
  | error err => exact ⟨nofun, nofun⟩
  | ok b => exact ⟨fun same => ⟨b, rfl, Except.ok.inj same⟩, fun ⟨_, same, placed⟩ => by
      cases same; exact congrArg _ placed⟩

theorem map_put {ε γ : Type} (f : α → γ) {put : β → α} (x : Except ε β) :
    (do return put (← x)).map f = do return f (put (← x)) := by
  cases x <;> rfl

/-! ### Values that may be missing -/

theorem kept_text (o : Option String) : Kept (Decoder.optional Decoder.text) .str o :=
  fun _ _ => rfl

theorem kept_fields (o : Option Fields) : Kept (Decoder.optional Decoder.fields) .obj o :=
  fun _ _ => rfl

theorem kept_scalarText (o : Option String) : Kept Decoder.scalarText .str o := fun _ _ => rfl

theorem kept_natural (o : Option Nat) : Kept (Decoder.optional Decoder.natural) Json.ofNat o := by
  intro n _
  simp [Decoder.optional, Json.ofNat, Decoder.natural, Except.map]

theorem kept_present {o : Option Json} (noNull : o ≠ some .null) : Kept Decoder.present id o := by
  rintro v rfl
  cases v with
  | null => exact absurd rfl noNull
  | _ => rfl

theorem present_ne_null {v : Json} {o : Option Json} (read : Decoder.present v = .ok o) :
    o ≠ some .null := by
  rintro rfl
  cases v <;> cases read

/-- A value that is never written as null is kept if it may be missing, too. -/
theorem Recodes.optional {item : Decoder β} {encode : β → Json} (recodes : Recodes item encode)
    (noNull : ∀ x, encode x ≠ .null) {v : Json} {o : Option β}
    (read : Decoder.optional item v = .ok o) : Kept (Decoder.optional item) encode o := by
  rintro y rfl
  have optional_eq : ∀ w, w ≠ .null → Decoder.optional item w = (item w).map some := by
    intro w there
    cases w with
    | null => exact absurd rfl there
    | _ => rfl
  have isItem : item v = .ok y := by
    by_cases there : v = .null
    · subst there
      cases read
    · rw [optional_eq v there] at read
      cases answer : item v with
      | error err => rw [answer] at read; cases read
      | ok _ => rw [answer] at read; cases read; rfl
  rw [optional_eq _ (noNull y), recodes v y isItem]
  rfl

/-! ### Lists -/

/-- A list whose items are read back is read back. -/
theorem list_map {item : Decoder α} {encode : α → Json} {xs : List α}
    (back : ∀ x ∈ xs, item (encode x) = .ok x) :
    Decoder.list item (.arr (xs.map encode)) = .ok xs := by
  rw [Decoder.list]
  induction xs with
  | nil => rfl
  | cons x xs ih =>
    obtain ⟨first, rest⟩ := List.forall_mem_cons.mp back
    rw [List.map_cons, List.mapM_cons, first, ih rest]
    rfl

theorem kept_list {item : Decoder β} {encode : β → Json} (back : ∀ x, item (encode x) = .ok x)
    (o : Option (List β)) :
    Kept (Decoder.optional (Decoder.list item)) (fun xs => .arr (xs.map encode)) o := by
  intro xs _
  show (Decoder.list item (.arr (xs.map encode))).map some = _
  rw [list_map fun x _ => back x]
  rfl

theorem Recodes.of_mem_list {item : Decoder α} {encode : α → Json} (recodes : Recodes item encode)
    {v : Json} {xs : List α} (read : Decoder.list item v = .ok xs) :
    ∀ x ∈ xs, item (encode x) = .ok x := by
  cases v with
  | arr vs =>
    intro x mem
    obtain ⟨w, here⟩ := mapM_eq_ok read x mem
    exact recodes w x here
  | _ => cases read

theorem Recodes.list {item : Decoder α} {encode : α → Json} (recodes : Recodes item encode) :
    Recodes (Decoder.list item) fun xs => .arr (xs.map encode) :=
  fun _ _ read => list_map (recodes.of_mem_list read)

end

/-! ### What reading a record keeps -/

namespace Shape

variable {α β : Type} {s : Shape α}

section

variable (holds : α → Prop) (set : ∀ x k v x', holds x → s.set x k v = .ok x' → holds x')
include set

theorem setAll_induct {seen : List String} {x y : α} {fs : List (String × Json)} (held : holds x)
    (read : s.setAll seen x fs = .ok y) : holds y := by
  induction fs generalizing seen x with
  | nil =>
    rw [setAll] at read
    split at read
    · cases read
    · cases read; exact held
  | cons f fs ih =>
    obtain ⟨k, v⟩ := f
    simp only [setAll] at read
    split at read
    · exact ih held read
    · split at read
      · cases read
      · split at read
        · next here => exact ih (set _ _ _ _ held here) read
        · cases read

theorem setInTurn_induct {x y : α} {fs : List (String × Json)} (held : holds x)
    (read : s.setInTurn x fs = .ok y) : holds y := by
  induction fs generalizing x with
  | nil => cases read; exact held
  | cons f fs ih =>
    obtain ⟨k, v⟩ := f
    rw [setInTurn] at read
    split at read
    · next here => exact ih (set _ _ _ _ held here) read
    · cases read

/-- What holds of the empty record, and still does when a value is put under a key, holds of every
record that is read. -/
theorem decode_induct (empty : holds s.empty) {collected : Bool} {v : Json} {x : α}
    (read : s.decode collected v = .ok x) : holds x := by
  cases v with
  | obj fs => exact setAll_induct holds set empty read
  | arr items =>
    simp only [decode] at read
    cases inTurn : s.setInTurn s.empty (s.keys.zip items) with
    | error err => rw [inTurn] at read; cases read
    | ok y =>
      rw [inTurn] at read
      simp only [bind, Except.bind] at read
      split at read
      · cases read
      · split at read
        · cases read
        · cases read
          exact setInTurn_induct holds set empty inTurn
  | _ => cases read

end

/-- Where a key that a record cannot do without is missing, none is read. -/
theorem setAll_of_missing {seen : List String} {x y : α} {fs : List (String × Json)} {key : String}
    (needed : key ∈ s.keys.take s.required) (unseen : key ∉ seen)
    (absent : ∀ f ∈ fs, s.key f.1 ≠ key) : s.setAll seen x fs ≠ .ok y := by
  intro read
  induction fs generalizing seen x with
  | nil =>
    rw [setAll] at read
    split at read
    · cases read
    · next all =>
      have known := List.find?_eq_none.mp all key needed
      simp [unseen] at known
  | cons f fs ih =>
    obtain ⟨k, v⟩ := f
    obtain ⟨other, absent⟩ := List.forall_mem_cons.mp absent
    simp only [setAll] at read
    split at read
    · exact ih unseen absent read
    · split at read
      · cases read
      · split at read
        · refine ih ?_ absent read
          rw [List.mem_cons, not_or]
          exact ⟨Ne.symm other, unseen⟩
        · cases read

theorem decode_of_missing {fs : Fields} {key : String} (needed : key ∈ s.keys.take s.required)
    (absent : ∀ f ∈ fs, s.key f.1 ≠ key) {collected : Bool} {x : α} :
    s.decode collected (.obj fs) ≠ .ok x := setAll_of_missing needed List.not_mem_nil absent

/-! ### Reading back what was written -/

/-- The keys of a record are distinct, and none is another name for one of them. -/
structure Regular (s : Shape α) : Prop where
  nodup : s.keys.Nodup
  plain : ∀ k ∈ s.keys, s.key k = k

/-- Fields with distinct keys of the record are put in one after the other. -/
theorem setAll_eq_setInTurn (regular : s.Regular) {seen : List String} {fs : Fields} (x : α)
    (distinct : (Fields.keys fs).Nodup) (known : ∀ k ∈ Fields.keys fs, k ∈ s.keys ∧ k ∉ seen)
    (needed : ∀ k ∈ s.keys.take s.required, k ∈ seen ∨ k ∈ Fields.keys fs) :
    s.setAll seen x fs = s.setInTurn x fs := by
  induction fs generalizing seen x with
  | nil =>
    have all : ((s.keys.take s.required).find? fun k => !seen.contains k) = none := by
      refine List.find?_eq_none.mpr fun k mem => ?_
      have here : k ∈ seen := (needed k mem).resolve_right (by simp [Table.keys])
      simp [here]
    rw [setAll, all]
    rfl
  | cons f fs ih =>
    obtain ⟨k, v⟩ := f
    obtain ⟨new, distinct⟩ := List.nodup_cons.mp distinct
    obtain ⟨⟨isKey, unseen⟩, others⟩ := List.forall_mem_cons.mp known
    have keyed : s.keys.contains k = true := List.contains_iff_mem.mpr isKey
    have fresh : seen.contains k = false := by simpa using unseen
    simp only [setAll, setInTurn, regular.plain k isKey, keyed, fresh, Bool.not_true,
      Bool.false_eq_true, if_false]
    cases s.set x k v with
    | error err => rfl
    | ok x =>
      refine ih x distinct (fun k' mem => ⟨(others k' mem).1, ?_⟩) fun k' mem => ?_
      · rw [List.mem_cons, not_or]
        exact ⟨fun same => new (same ▸ mem), (others k' mem).2⟩
      · rcases needed k' mem with here | here
        · exact .inl (List.mem_cons_of_mem _ here)
        · rcases List.mem_cons.mp here with rfl | here
          · exact .inl List.mem_cons_self
          · exact .inr here

/-- Values under different keys may be put in one after the other in either order. -/
def Commutes (s : Shape α) : Prop :=
  ∀ ⦃k k'⦄, k ∈ s.keys → k' ∈ s.keys → k ≠ k' → ∀ x v v' y,
    (s.set x k v).bind (fun x => s.set x k' v') = .ok y →
      (s.set x k' v').bind (fun x => s.set x k v) = .ok y

theorem setInTurn_cons (x : α) (f : String × Json) (fs : Fields) :
    s.setInTurn x (f :: fs) = (s.set x f.1 f.2).bind fun x => s.setInTurn x fs := by
  rw [setInTurn]
  cases s.set x f.1 f.2 <;> rfl

theorem setInTurn_cons_cons (x : α) (g f : String × Json) (fs : Fields) :
    s.setInTurn x (g :: f :: fs) =
      ((s.set x g.1 g.2).bind fun x => s.set x f.1 f.2).bind fun x => s.setInTurn x fs := by
  simp only [setInTurn_cons]
  cases s.set x g.1 g.2 <;> rfl

/-- Fields with distinct keys of the record may come in any order. -/
theorem setInTurn_perm (commutes : s.Commutes) {fs fs' : Fields} (perm : fs.Perm fs') {x y : α}
    (distinct : (Fields.keys fs).Nodup) (known : ∀ k ∈ Fields.keys fs, k ∈ s.keys)
    (filled : s.setInTurn x fs = .ok y) : s.setInTurn x fs' = .ok y := by
  induction perm generalizing x with
  | nil => exact filled
  | cons f _ ih =>
    rw [setInTurn_cons] at filled ⊢
    cases here : s.set x f.1 f.2 with
    | error => rw [here] at filled; cases filled
    | ok x' =>
      rw [here] at filled
      exact ih (List.nodup_cons.mp distinct).2 (List.forall_mem_cons.mp known).2 filled
  | swap f g fs =>
    obtain ⟨isKey, isKey', -⟩ : g.1 ∈ s.keys ∧ f.1 ∈ s.keys ∧ ∀ k ∈ Fields.keys fs, k ∈ s.keys :=
      (List.forall_mem_cons.mp known).imp_right List.forall_mem_cons.mp
    have ne : g.1 ≠ f.1 := fun same => (List.nodup_cons.mp distinct).1 (by simp [same])
    rw [setInTurn_cons_cons] at filled ⊢
    obtain ⟨z, both, rest⟩ := exists_of_bind_eq_ok filled
    rw [commutes isKey isKey' ne x g.2 f.2 z both]
    exact rest
  | trans perm _ ih ih' =>
    have keys := perm.map Prod.fst
    exact ih' (keys.nodup_iff.mp distinct) (fun k mem => known k (keys.mem_iff.mpr mem))
      (ih distinct known filled)

/-- The fields stand under some of the keys, in order, and putting their values into the record `x`
gives `y`. -/
structure Fills (s : Shape α) (keys : List String) (x : α) (fs : Fields) (y : α) : Prop where
  ordered : (Fields.keys fs).Sublist keys
  fill : s.setInTurn x fs = .ok y

namespace Fills

variable {keys : List String} {key : String} {fs : Fields} {x x' y : α}

theorem nil : Fills s [] y [] y := ⟨List.Sublist.refl _, rfl⟩

/-- A value that is always there. -/
theorem value {v : Json} (sets : s.set x key v = .ok x') (rest : Fills s keys x' fs y) :
    Fills s (key :: keys) x ((key, v) :: fs) y where
  ordered := rest.ordered.cons_cons key
  fill := by
    rw [setInTurn, sets]
    exact rest.fill

/-- A value that may be missing, which `put` puts into the record. -/
theorem field {decode : Decoder (Option β)} {encode : β → Json} {o : Option β} (put : Option β → α)
    (kept : Kept decode encode o)
    (sets : ∀ v, s.set (put none) key v = do return put (← decode v)) (unset : put none = x)
    (rest : Fills s keys (put o) fs y) :
    Fills s (key :: keys) x (fieldOf key encode o ++ fs) y := by
  subst unset
  cases o with
  | none => exact ⟨rest.ordered.cons key, rest.fill⟩
  | some v =>
    refine rest.value ?_
    rw [sets, kept v rfl]
    rfl

/-- Fields that fill the empty record are read as the record. -/
theorem decode (fills : Fills s s.keys s.empty fs y) (regular : s.Regular)
    (needed : ∀ k ∈ s.keys.take s.required, k ∈ Fields.keys fs) (collected : Bool) :
    s.decode collected (.obj fs) = .ok y := by
  rw [← fills.fill]
  exact setAll_eq_setInTurn regular _ (regular.nodup.sublist fills.ordered)
    (fun k mem => ⟨fills.ordered.subset mem, List.not_mem_nil⟩) fun k mem => .inr (needed k mem)

end Fills

end Shape

/-! ### Records that take the fields of others -/

section

variable {α β : Type} {name key : String} {own : Decoder α} {rest : Shape β} {x : α} {y : β}

theorem decodeBeside_eq_ok {v : Json} (read : decodeBeside name key own rest v = .ok (x, y)) :
    (∃ w, own w = .ok x) ∧ ∃ w, rest.decode true w = .ok y := by
  cases v with
  | obj fs =>
    simp only [decodeBeside] at read
    split at read
    · cases read
    · next w _ =>
      cases mine : own w with
      | error err => rw [mine] at read; cases read
      | ok x' =>
        rw [mine] at read
        simp only [bind, Except.bind] at read
        split at read
        · cases read
        · next others =>
          cases read
          exact ⟨⟨w, mine⟩, _, others⟩
  | _ => cases read

/-- Behind fields of the other record, the own value is found. -/
theorem decodeBeside_written {fs : Fields} {v : Json} (mine : own v = .ok x)
    (others : rest.decode true (.obj fs) = .ok y) (apart : key ∉ Fields.keys fs) :
    decodeBeside name key own rest (.obj (fs ++ [(key, v)])) = .ok (x, y) := by
  have found : Fields.get? (fs ++ [(key, v)]) key = some v := Table.get?_append_of_not_mem apart v
  have left : (fs ++ [(key, v)]).filter (fun f => f.1 != key) = fs := by
    rw [List.filter_append, List.filter_cons_of_neg (by simp), List.filter_nil, List.append_nil]
    refine List.filter_eq_self.mpr fun f mem => ?_
    have ne : f.1 ≠ key := fun same => apart (same ▸ List.mem_map_of_mem mem)
    simpa using ne
  simp only [decodeBeside, found, mine, left, others, bind, Except.bind]
  rfl

end

end Promptry
