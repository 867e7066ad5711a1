import Mathlib.Data.List.TakeWhile
import Promptry.Proofs.Store.Tree
import Promptry.Store.Directory

/-!
Paths with names that are too long. On a path that fits, a store looks up and writes what its tree
does; of any other path it sees the part in front of the first name that is too long. So what is
found stands on a path that fits, and a write to another path fails, with the folders in front of
that name made. Main statements: `find_eq_here_iff`, `write_of_fits` and `write_of_not_fits`.
-/

namespace Promptry.Store.Directory

variable {d : Directory} {path p q : Path}

/-! ### Following a path -/

theorem fits_append : d.Fits (p ++ q) ↔ d.Fits p ∧ d.Fits q := List.forall_mem_append

theorem Fits.of_front (fits : d.Fits path) (front : q <+: path) : d.Fits q :=
  fun name mem => fits name (front.subset mem)

theorem fits_of_unlimited (unlimited : d.limit = none) (path : Path) : d.Fits path := by
  intro name mem
  rw [takes, unlimited]
  rfl

theorem reach_of_fits (fits : d.Fits path) : d.reach path = path :=
  List.takeWhile_eq_self_iff.mpr fits

theorem reach_prefix (d : Directory) (path : Path) : d.reach path <+: path :=
  List.takeWhile_prefix _

theorem fits_reach (d : Directory) (path : Path) : d.Fits (d.reach path) :=
  fun _ mem => List.mem_takeWhile_imp mem

/-- What is reached is all of the path that fits. -/
theorem prefix_reach_iff : q <+: d.reach path ↔ q <+: path ∧ d.Fits q := by
  constructor
  · exact fun front => ⟨front.trans (d.reach_prefix path), (d.fits_reach path).of_front front⟩
  · rintro ⟨⟨rest, rfl⟩, fits⟩
    exact List.prefix_of_prefix_length_le (List.prefix_append q rest) (d.reach_prefix _)
      (by rw [reach, List.takeWhile_append_of_pos fits]; simp)

theorem reach_append (fits : d.Fits p) (q : Path) : d.reach (p ++ q) = p ++ d.reach q :=
  List.takeWhile_append_of_pos fits

/-- In front of a file whose path does not fit, as much is reached as on the whole path. -/
theorem reach_dropLast (long : ¬ d.Fits path) : d.reach path.dropLast = d.reach path := by
  have same (q : Path) : q <+: d.reach path.dropLast ↔ q <+: d.reach path := by
    rw [prefix_reach_iff, prefix_reach_iff]
    refine and_congr_left fun fits =>
      ⟨fun front => front.trans path.dropLast_prefix, fun front => ?_⟩
    rcases List.eq_nil_or_concat path with rfl | ⟨dirs, file, rfl⟩
    · exact front
    · rw [List.concat_eq_append] at front long ⊢
      rw [List.dropLast_concat]
      refine (List.prefix_concat_iff.mp front).resolve_left ?_
      rintro rfl
      exact long fits
  exact ((same _).mp List.prefix_rfl).eq_of_length_le ((same _).mpr List.prefix_rfl).length_le

/-! ### Looking up -/

theorem find_of_fits (fits : d.Fits path) : d.find path = d.tree.find path := by
  rw [find, reach_of_fits fits]
  cases d.tree.find path with
  | here e => exact if_pos fits
  | missing | blocked => rfl

theorem find_eq_here_iff {e : Entry} :
    d.find path = .here e ↔ d.Fits path ∧ d.tree.find path = .here e := by
  by_cases fits : d.Fits path
  · rw [find_of_fits fits, and_iff_right fits]
  · refine iff_of_false ?_ fun here => fits here.1
    rw [find]
    cases d.tree.find (d.reach path) with
    | here e =>
      dsimp only
      rw [if_neg fits]
      exact nofun
    | missing | blocked => exact nofun

/-! ### Writing -/

/-- The folders that are made are those in front of a name that is too long. -/
theorem createFolders_eq (d : Directory) (path : Path) :
    d.createFolders path = match d.tree.makeFolders (d.reach path) with
      | some tree => (decide (d.Fits path), tree)
      | none => (false, d.tree) := by
  rw [createFolders, Entry.createFolders_eq, List.reverse_reverse]
  cases d.tree.makeFolders (d.reach path) <;> simp [Entry.outcome]

/-- A source is written as far as it is sound and the tree has place for it. -/
theorem write_of_fits (fits : d.Fits path) (source : String) :
    d.write path source = match checkSource source with
      | .error e => (.error e, d)
      | .ok _ =>
        match d.tree.makeFolders path.dropLast with
        | none => (.error (.fault (.noDirectory (d.pathText path.dropLast))), d)
        | some tree =>
          match tree.writeFile (some source) path with
          | none => (.error (.fault (.noWrite (d.pathText path))), { d with tree })
          | some tree => (.ok (), { d with tree }) := by
  have fits' := fits.of_front path.dropLast_prefix
  simp only [write, createFolders_eq, reach_of_fits fits', decide_eq_true fits', writeFile,
    if_pos fits]
  cases checkSource source with
  | error e => rfl
  | ok prompt =>
    cases d.tree.makeFolders path.dropLast with
    | none => rfl
    | some tree => cases tree.writeFile (some source) path <;> rfl

/-- To a path that does not fit nothing is written. The folders in front of the first name that is
too long are made, unless the source is refused or they cannot be made. -/
theorem write_of_not_fits (long : ¬ d.Fits path) (source : String) :
    ∃ err, d.write path source = (.error err,
      match checkSource source, d.tree.makeFolders (d.reach path) with
      | .ok _, some tree => { d with tree }
      | _, _ => d) := by
  rw [write, createFolders_eq, reach_dropLast long]
  cases checkSource source with
  | error e => exact ⟨e, rfl⟩
  | ok prompt =>
    cases d.tree.makeFolders (d.reach path) with
    | none => exact ⟨_, rfl⟩
    | some tree =>
      dsimp only
      cases decide (d.Fits path.dropLast) with
      | false => exact ⟨_, rfl⟩
      | true =>
        dsimp only
        rw [writeFile, if_neg long]
        exact ⟨_, rfl⟩

end Promptry.Store.Directory
