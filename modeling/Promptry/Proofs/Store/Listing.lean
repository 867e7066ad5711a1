import Mathlib.Data.List.Sort
import Promptry.Proofs.Store.Files
import Promptry.Proofs.Store.Order

/-!
What a store lists. A reference is listed if and only if a file stands where the reference is kept,
and listings are in strict order, so that they are known from the files alone. Main statements:
`mem_listing_iff`, `pairwise_listing` and `eq_of_mem_iff`.
-/

namespace Promptry.Store

/-! ### The references of files -/

/-- What a scan takes the file at a path for, hidden files and folders apart. -/
def listed (folder : Path) : Path → Option (Kind × Reference)
  | [] => none
  | [name] => if isHidden name then none else referenceOf folder name
  | name :: rest => if isHidden name then none else listed (folder ++ [name]) rest

theorem listed_cons {folder rest : Path} (name : String) (more : rest ≠ []) :
    listed folder (name :: rest) =
      if isHidden name then none else listed (folder ++ [name]) rest := by
  cases rest with
  | nil => exact absurd rfl more
  | cons => rfl

theorem listed_append {folder dirs : Path} {name : String} :
    listed folder (dirs ++ [name]) =
      if (dirs ++ [name]).any isHidden then none else referenceOf (folder ++ dirs) name := by
  induction dirs generalizing folder with
  | nil => simp [listed]
  | cons dir dirs ih =>
    rw [List.cons_append, listed_cons dir (by simp), ih, List.any_cons, List.append_assoc,
      List.singleton_append]
    cases isHidden dir <;> simp

theorem ne_nil_of_mem_filePathsIn {entries : List (String × Entry)} {path : Path}
    (mem : path ∈ Entry.filePathsIn entries) : path ≠ [] := by
  induction entries with
  | nil => cases mem
  | cons entry rest ih =>
    rw [Entry.filePathsIn, List.mem_append] at mem
    rcases mem with mem | mem
    · obtain ⟨below, -, rfl⟩ := List.mem_map.mp mem
      exact List.cons_ne_nil _ _
    · exact ih mem

theorem filterMap_listed_cons (folder : Path) (name : String) {paths : List Path}
    (more : ∀ path ∈ paths, path ≠ []) :
    (paths.map (name :: ·)).filterMap (listed folder) =
      if isHidden name then [] else paths.filterMap (listed (folder ++ [name])) := by
  rw [List.filterMap_map]
  cases hidden : isHidden name with
  | true =>
    rw [if_pos rfl, List.filterMap_eq_nil_iff]
    intro path mem
    rw [Function.comp_apply, listed_cons name (more path mem), hidden]
    rfl
  | false =>
    refine List.filterMap_congr fun path mem => ?_
    rw [Function.comp_apply, listed_cons name (more path mem), hidden]
    rfl

mutual

theorem referencesIn_eq (folder : Path) : ∀ entries : List (String × Entry),
    referencesIn folder entries = (Entry.filePathsIn entries).filterMap (listed folder)
  | [] => by rw [referencesIn, Entry.filePathsIn]; rfl
  | (name, .file _) :: rest => by
    rw [referencesIn, Entry.filePathsIn, List.filterMap_append, referencesIn_eq folder rest,
      Entry.filePaths]
    cases hidden : isHidden name with
    | true => simp [listed, hidden]
    | false => cases here : referenceOf folder name <;> simp [listed, hidden, here]
  | (name, .folder entries) :: rest => by
    rw [referencesIn, Entry.filePathsIn, List.filterMap_append, referencesIn_eq folder rest,
      referencesIn_eq (folder ++ [name]) entries, Entry.filePaths,
      filterMap_listed_cons folder name fun _ mem => ne_nil_of_mem_filePathsIn mem]

end

/-! ### Files of a sound tree -/

namespace Entry

variable {admits : String → Prop}

mutual

/-- The paths of the files are those at which files are found. -/
theorem exists_find_of_mem : ∀ {e : Entry}, e.Sound admits → ∀ {path : Path}, path ∈ e.filePaths →
    ∃ t, e.find path = .here (.file t)
  | .file t, _, path, mem => by
    rw [filePaths, List.mem_singleton] at mem
    exact ⟨t, by rw [mem]; rfl⟩
  | .folder entries, sound, path, mem => by
    obtain ⟨name, c, rest, t, rfl, stood, file⟩ := exists_find_of_memIn sound.1 sound.2 mem
    exact ⟨t, by rw [find, stood]; exact file⟩

theorem exists_find_of_memIn : ∀ {entries : List (String × Entry)},
    (Table.keys entries).Nodup → SoundIn admits entries →
      ∀ {path : Path}, path ∈ filePathsIn entries →
        ∃ name c rest t, path = name :: rest ∧ Table.get? entries name = some c ∧
          c.find rest = .here (.file t)
  | [], _, _, _, mem => nomatch mem
  | (name, e) :: entries, nodup, sound, path, mem => by
    rw [filePathsIn, List.mem_append] at mem
    rcases mem with mem | mem
    · obtain ⟨rest, below, rfl⟩ := List.mem_map.mp mem
      obtain ⟨t, file⟩ := exists_find_of_mem sound.2.1 below
      exact ⟨name, e, rest, t, rfl, by rw [Table.get?, if_pos rfl], file⟩
    · obtain ⟨new, nodup⟩ := List.nodup_cons.mp nodup
      obtain ⟨other, c, rest, t, rfl, stood, file⟩ := exists_find_of_memIn nodup sound.2.2 mem
      have ne : name ≠ other := fun same =>
        new (same ▸ Table.mem_keys_of_get? stood)
      exact ⟨other, c, rest, t, rfl, by rw [Table.get?, if_neg ne]; exact stood, file⟩

end

theorem mem_filePaths_iff {e : Entry} (sound : e.Sound admits) {path : Path} :
    path ∈ e.filePaths ↔ ∃ t, e.find path = .here (.file t) :=
  ⟨exists_find_of_mem sound, fun ⟨_, here⟩ => mem_filePaths_of_find here⟩

mutual

theorem nodup_filePaths : ∀ {e : Entry}, e.Sound admits → e.filePaths.Nodup
  | .file _, _ => List.nodup_singleton _
  | .folder _, sound => nodup_filePathsIn sound.1 sound.2

theorem nodup_filePathsIn : ∀ {entries : List (String × Entry)},
    (Table.keys entries).Nodup → SoundIn admits entries → (filePathsIn entries).Nodup
  | [], _, _ => List.nodup_nil
  | (name, e) :: entries, nodup, sound => by
    obtain ⟨new, nodup⟩ := List.nodup_cons.mp nodup
    rw [filePathsIn, List.nodup_append]
    refine ⟨(nodup_filePaths sound.2.1).map fun _ _ same => (List.cons.inj same).2,
      nodup_filePathsIn nodup sound.2.2, ?_⟩
    rintro path first other second rfl
    obtain ⟨rest, -, rfl⟩ := List.mem_map.mp first
    obtain ⟨n, c, rest', t, same, stood, -⟩ := exists_find_of_memIn nodup sound.2.2 second
    cases same
    exact new (Table.mem_keys_of_get? stood)

end

end Entry

/-! ### What is listed -/

theorem isHidden_eq_false {name : String} (plain : name.toList.head? ≠ some '.') :
    isHidden name = false := by
  simpa [isHidden] using plain

theorem head?_ne_dot {cs : List Char} (ok : Name.isSegment cs = true) (back : List Char) :
    (cs ++ back).head? ≠ some '.' := by
  obtain ⟨filled, chars⟩ := Name.isSegment_iff.mp ok
  cases cs with
  | nil => exact absurd rfl filled
  | cons c r =>
    intro dot
    cases dot
    have char := chars '.' List.mem_cons_self
    rw [Name.not_isNameChar_dot] at char
    cases char

/-- Nothing on the way to the file of a name is hidden. -/
theorem not_isHidden_of_fileOf {kind : Kind} {name : String} {variant : Option String} {path : Path}
    (ok : fileOf kind name variant = .ok path) : path.any isHidden = false := by
  obtain ⟨named, -, rfl⟩ := fileOf_eq_ok_iff.mp ok
  rw [List.any_eq_false]
  intro n mem
  rw [Bool.not_eq_true]
  apply isHidden_eq_false
  rcases List.mem_append.mp mem with mem | mem
  · simpa using head?_ne_dot (isSegment_of_mem_foldersOf named mem) []
  · rw [List.mem_singleton.mp mem, fileName_eq, String.toList_ofList, stem, withMark]
    cases kind with
    | part => simp
    | whole =>
      rw [List.append_assoc]
      exact head?_ne_dot (isSegment_baseOf named) _

/-- The path of a name is listed as the name. -/
theorem listed_of_fileOf {kind : Kind} {name : String} {variant : Option String} {path : Path}
    (ok : fileOf kind name variant = .ok path) (unmarked : Unmarked kind name) :
    listed [] path = some (kind, ⟨name, variant, none⟩) := by
  have seen := not_isHidden_of_fileOf ok
  obtain ⟨-, -, rfl⟩ := fileOf_eq_ok_iff.mp ok
  rw [listed_append, seen, List.nil_append, referenceOf_of_fileOf ok unmarked]
  rfl

/-- What a path without slashes in its names is listed as is kept at the path. -/
theorem fileOf_of_listed {kind : Kind} {path : Path} {r : Reference}
    (plain : ∀ name ∈ path, '/' ∉ name.toList) (seen : listed [] path = some (kind, r)) :
    fileOf kind r.name r.variant = .ok path ∧ Unmarked kind r.name ∧ r.version = none := by
  rcases List.eq_nil_or_concat path with rfl | ⟨dirs, name, rfl⟩
  · cases seen
  · rw [List.concat_eq_append] at plain seen ⊢
    rw [listed_append] at seen
    split at seen
    · cases seen
    · rw [List.nil_append] at seen
      exact fileOf_of_referenceOf plain seen

namespace Directory

variable {d : Directory} {kind : Kind}

/-- A file or folder may have a name that holds no slash and is short enough. -/
def Admits (d : Directory) (name : String) : Prop := '/' ∉ name.toList ∧ d.takes name = true

instance (d : Directory) (name : String) : Decidable (d.Admits name) :=
  inferInstanceAs (Decidable (_ ∧ _))

/-- The names in each folder of the tree are distinct and admitted, and so are those on the way to
the root. -/
structure Sound (d : Directory) : Prop where
  tree : d.tree.Sound d.Admits
  root : ∀ name ∈ d.root, d.Admits name

/-- The text of the file at a path below the root, if a file stands there. -/
def FileAt (d : Directory) (path : Path) (text : Option String) : Prop :=
  d.tree.find (d.root ++ path) = .here (.file text)

/-- What is listed, before it is put into order. -/
theorem listing_eq_ok_iff (fits : d.Fits d.root) {l : List Reference} :
    d.listing kind = .ok l ↔ d.tree.find d.root = .missing ∧ l = [] ∨
      ∃ entries, d.tree.find d.root = .here (.folder entries) ∧
        l = (((Entry.filePathsIn entries).filterMap (listed [])).filter
          (·.1 = kind) |>.map (·.2)).mergeSort Reference.le := by
  rw [listing, find_of_fits fits]
  cases d.tree.find d.root with
  | missing => simp [eq_comm]
  | blocked => simp
  | here e =>
    cases e with
    | file t => simp
    | folder entries => simp [referencesIn_eq, eq_comm]

theorem fileAt_iff {entries : List (String × Entry)}
    (root : d.tree.find d.root = .here (.folder entries)) {path : Path} {text : Option String} :
    d.FileAt path text ↔ (Entry.folder entries).find path = .here (.file text) := by
  rw [FileAt, Entry.find_append, root]

theorem not_fileAt_of_missing (root : d.tree.find d.root = .missing) {path : Path}
    {text : Option String} : ¬ d.FileAt path text := by
  rw [FileAt, Entry.find_append, root]
  exact nofun

theorem Sound.slash_notMem (sound : d.Sound) {path : Path} {text : Option String}
    (file : d.FileAt path text) : ∀ name ∈ path, '/' ∉ name.toList := fun name mem =>
  (sound.tree.admits_of_find file name (List.mem_append_right _ mem)).1

/-- Where something stands in a sound tree, all names are short enough. -/
theorem Sound.fits (sound : d.Sound) {path : Path} {e : Entry} (here : d.tree.find path = .here e) :
    d.Fits path := fun name mem => (sound.tree.admits_of_find here name mem).2

theorem Sound.fits_root (sound : d.Sound) : d.Fits d.root := fun name mem =>
  (sound.root name mem).2

/-- The references of a listing are those that its files are listed as. -/
theorem mem_listing_iff_listed (sound : d.Sound) {l : List Reference}
    (answer : d.listing kind = .ok l) {r : Reference} :
    r ∈ l ↔ ∃ path text, d.FileAt path text ∧ listed [] path = some (kind, r) := by
  rcases (listing_eq_ok_iff sound.fits_root).mp answer with ⟨root, rfl⟩ | ⟨entries, root, rfl⟩
  · constructor
    · exact fun mem => nomatch mem
    · rintro ⟨path, text, file, -⟩
      exact absurd file (not_fileAt_of_missing root)
  · simp only [List.mem_mergeSort, List.mem_map, List.mem_filter, List.mem_filterMap,
      decide_eq_true_eq, Prod.exists, exists_eq_right, fileAt_iff root]
    have inside (path : Path) : path ∈ (Entry.folder entries).filePaths ↔
        ∃ t, (Entry.folder entries).find path = .here (.file t) :=
      Entry.mem_filePaths_iff (sound.tree.find root)
    constructor
    · rintro ⟨path, mem, seen⟩
      obtain ⟨text, file⟩ := (inside path).mp mem
      exact ⟨path, text, file, seen⟩
    · rintro ⟨path, text, file, seen⟩
      exact ⟨path, (inside path).mpr ⟨text, file⟩, seen⟩

/-- A reference is listed if and only if a file stands where it is kept, unless that is the file of
a partial. -/
theorem mem_listing_iff (sound : d.Sound) {l : List Reference} (answer : d.listing kind = .ok l)
    {r : Reference} : r ∈ l ↔ r.version = none ∧ Unmarked kind r.name ∧
      ∃ path, fileOf kind r.name r.variant = .ok path ∧ ∃ text, d.FileAt path text := by
  rw [mem_listing_iff_listed sound answer]
  constructor
  · rintro ⟨path, text, file, seen⟩
    obtain ⟨kept, unmarked, version⟩ := fileOf_of_listed (sound.slash_notMem file) seen
    exact ⟨version, unmarked, path, kept, text, file⟩
  · rintro ⟨version, unmarked, path, kept, text, file⟩
    refine ⟨path, text, file, (listed_of_fileOf kept unmarked).trans ?_⟩
    rw [← version]

/-- Files at different paths are listed as different references. -/
theorem listed_injective (sound : d.Sound) {path path' : Path} {text text' : Option String}
    (file : d.FileAt path text) (file' : d.FileAt path' text') {r : Reference}
    (seen : listed [] path = some (kind, r)) (seen' : listed [] path' = some (kind, r)) :
    path = path' := by
  have here := (fileOf_of_listed (sound.slash_notMem file) seen).1
  have there := (fileOf_of_listed (sound.slash_notMem file') seen').1
  exact Except.ok.inj (here.symm.trans there)

theorem nodup_listing (sound : d.Sound) {l : List Reference} (answer : d.listing kind = .ok l) :
    l.Nodup := by
  rcases (listing_eq_ok_iff sound.fits_root).mp answer with ⟨root, rfl⟩ | ⟨entries, root, rfl⟩
  · exact List.nodup_nil
  · rw [(List.mergeSort_perm _ _).nodup_iff]
    have inside := sound.tree.find root
    -- the paths are distinct, and so is what they are listed as
    have found : ((Entry.filePathsIn entries).filterMap (listed [])).Nodup := by
      rw [List.Nodup, List.pairwise_filterMap]
      refine (Entry.nodup_filePathsIn inside.1 inside.2).imp_of_mem ?_
      rintro path path' mem mem' ne ⟨k, r⟩ seen _ seen' rfl
      obtain ⟨text, file⟩ := (Entry.mem_filePaths_iff inside).mp mem
      obtain ⟨text', file'⟩ := (Entry.mem_filePaths_iff inside).mp mem'
      exact ne (listed_injective sound ((fileAt_iff root).mpr file) ((fileAt_iff root).mpr file')
        seen seen')
    refine (found.filter _).map_on ?_
    rintro ⟨k, r⟩ mem ⟨k', r'⟩ mem' rfl
    have kinds : k = kind ∧ k' = kind := by
      simp only [List.mem_filter, decide_eq_true_eq] at mem mem'
      exact ⟨mem.2, mem'.2⟩
    rw [kinds.1, kinds.2]

/-- Listings are in strict order. -/
theorem pairwise_listing (sound : d.Sound) {l : List Reference} (answer : d.listing kind = .ok l) :
    l.Pairwise Reference.Before := by
  have ordered : l.Pairwise fun a b => a.le b = true := by
    rcases (listing_eq_ok_iff sound.fits_root).mp answer with ⟨-, rfl⟩ | ⟨entries, -, rfl⟩
    · exact .nil
    · refine List.pairwise_mergeSort ?_ Reference.le_total _
      exact fun _ _ _ => Reference.le_trans
  refine (ordered.and (nodup_listing sound answer)).imp_of_mem fun first second both => ?_
  exact Reference.before_of_le both.1 both.2 ((mem_listing_iff sound answer).mp first).1
    ((mem_listing_iff sound answer).mp second).1

/-- A listing is all that is listed, in strict order. -/
theorem eq_of_mem_iff {l l' : List Reference} (ordered : l.Pairwise Reference.Before)
    (ordered' : l'.Pairwise Reference.Before) (same : ∀ r, r ∈ l ↔ r ∈ l') : l = l' := by
  have irrefl : Std.Irrefl Reference.Before := ⟨Reference.not_before_self⟩
  have antisymm : Std.Antisymm Reference.Before :=
    ⟨fun a _ before after => absurd (before.trans after) (Reference.not_before_self a)⟩
  exact ordered.eq_of_mem_iff ordered' same

end Directory

end Promptry.Store
