import Mathlib.Data.List.Nodup
import Mathlib.Data.List.Perm.Subperm
import Promptry.Proofs.Store.Fitting
import Promptry.Proofs.Store.Locating

/-!
The files of a tree, as many as `fileCount` says, and the partials that a store keeps in them, each
in a file of its own. Main statements: `length_filePaths`, `mem_filePaths_of_find` and
`Directory.length_le_fileCount`.
-/

namespace Promptry.Store

/-! ### Files of a tree -/

namespace Entry

mutual

/-- The paths of all files below an entry. -/
def filePaths : Entry → List Path
  | .file _ => [[]]
  | .folder entries => filePathsIn entries

def filePathsIn : List (String × Entry) → List Path
  | [] => []
  | (name, e) :: rest => e.filePaths.map (name :: ·) ++ filePathsIn rest

end

mutual

theorem length_filePaths : ∀ e : Entry, e.filePaths.length = e.fileCount
  | .file _ => rfl
  | .folder entries => length_filePathsIn entries

theorem length_filePathsIn : ∀ entries, (filePathsIn entries).length = fileCountIn entries
  | [] => rfl
  | (name, e) :: rest => by
    rw [filePathsIn, fileCountIn, List.length_append, List.length_map, length_filePaths e,
      length_filePathsIn rest]

end

theorem mem_filePathsIn {entries : List (String × Entry)} {name : String} {e : Entry} {path : Path}
    (here : Table.get? entries name = some e) (below : path ∈ e.filePaths) :
    name :: path ∈ filePathsIn entries := by
  induction entries with
  | nil => cases here
  | cons entry rest ih =>
    obtain ⟨key, child⟩ := entry
    rw [filePathsIn, List.mem_append]
    by_cases same : key = name
    · rw [Table.get?, if_pos same] at here
      cases here
      exact .inl (List.mem_map.mpr ⟨path, below, by rw [same]⟩)
    · rw [Table.get?, if_neg same] at here
      exact .inr (ih here)

/-- A file that stands at a path is among the files. -/
theorem mem_filePaths_of_find {e : Entry} {path : Path} {text : Option String}
    (here : e.find path = .here (.file text)) : path ∈ e.filePaths := by
  induction path generalizing e with
  | nil =>
    rw [find_nil] at here
    cases here
    exact List.mem_singleton.mpr rfl
  | cons name path ih =>
    cases e with
    | file t => cases here
    | folder entries =>
      rw [find] at here
      cases child : Table.get? entries name with
      | none => rw [child] at here; cases here
      | some c =>
        rw [child] at here
        exact mem_filePathsIn child (ih here)

/-- No more files stand at different paths than the tree has. -/
theorem length_le_fileCount {e : Entry} {paths : List Path} (nodup : paths.Nodup)
    (files : ∀ path ∈ paths, ∃ text, e.find path = .here (.file text)) :
    paths.length ≤ e.fileCount := by
  have sub : paths ⊆ e.filePaths := fun path mem => by
    obtain ⟨text, here⟩ := files path mem
    exact mem_filePaths_of_find here
  calc paths.length ≤ e.filePaths.length := (nodup.subperm sub).length_le
    _ = e.fileCount := length_filePaths e

end Entry

/-! ### Files of partials -/

namespace Directory

/-- A partial that loads is kept in a file of its own. -/
theorem file_of_load {d : Directory} {name : String} {p : StoredPrompt}
    (loaded : d.load .part name none = .ok (some p)) :
    ∃ path, fileOf .part name none = .ok path ∧
      ∃ text, d.tree.find (d.root ++ path) = .here (.file text) := by
  unfold load address at loaded
  cases addressed : fileOf .part name none with
  | error err => rw [locate_of_refused addressed] at loaded; cases loaded
  | ok path =>
    rw [locate_of_fileOf addressed] at loaded
    refine ⟨path, rfl, ?_⟩
    simp only [bind, Except.bind] at loaded
    split at loaded
    · next text here => exact ⟨_, (find_eq_here_iff.mp here).2⟩
    · cases loaded
    · cases loaded

/-- No more partials can be loaded than the tree has files. -/
theorem length_le_fileCount {d : Directory} {names : List String} (nodup : names.Nodup)
    (loads : ∀ name ∈ names, ∃ p, d.load .part name none = .ok (some p)) :
    names.length ≤ d.tree.fileCount := by
  have kept : ∀ name ∈ names, ∃ path, fileOf .part name none = .ok path ∧
      ∃ text, d.tree.find (d.root ++ path) = .here (.file text) := fun name mem => by
    obtain ⟨p, loaded⟩ := loads name mem
    exact file_of_load loaded
  choose! path addressed found using kept
  have distinct : (names.map fun name => d.root ++ path name).Nodup := by
    refine List.Nodup.map_on (fun a ha b hb same => ?_) nodup
    have paths := List.append_cancel_left same
    exact (fileOf_injective (addressed a ha) (paths ▸ addressed b hb)).1
  rw [← List.length_map (f := fun name => d.root ++ path name)]
  refine Entry.length_le_fileCount distinct fun p mem => ?_
  obtain ⟨name, named, rfl⟩ := List.mem_map.mp mem
  exact found name named

end Directory

end Promptry.Store
