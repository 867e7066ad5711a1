import Promptry.Proofs.Store.Loading

/-!
What a change to a store does, and what it leaves alone. A change that is not refused is one at the
path of its file: what is found at the path of another file stays as it is, so that it is loaded and
listed as before. Main statements: `change_cases`, `load_of_save`, `load_of_apart` and
`list_of_apart`.
-/

namespace Promptry.Store

/-- What a source is kept under. -/
structure Key where
  kind : Kind
  name : String
  variant : Option String
  deriving DecidableEq, Repr

/-- The path of the file of a key. -/
def Key.file (key : Key) : Except Name.NameError Path := fileOf key.kind key.name key.variant

/-- A change to a store. -/
inductive Change where
  | save (kind : Kind) (prompt : StoredPrompt)
  | delete (kind : Kind) (name : String) (variant : Option String)

/-- What a change is about. -/
def Change.key : Change → Key
  | save kind prompt => ⟨kind, prompt.reference.name, prompt.reference.variant⟩
  | delete kind name variant => ⟨kind, name, variant⟩

/-! ### Paths of files -/

theorem dot_mem_fileName (kind : Kind) (base : List Char) (variant : Option String) :
    '.' ∈ (fileName kind base variant).toList := by
  rw [fileName_eq, String.toList_ofList, List.mem_append]
  exact .inr (by decide)

/-- The path of a file does not lead through another one. -/
theorem eq_of_front {kind other : Kind} {name name' : String} {variant variant' : Option String}
    {path path' : Path} (here : fileOf kind name variant = .ok path)
    (there : fileOf other name' variant' = .ok path') (front : path <+: path') : path = path' := by
  obtain ⟨-, -, made⟩ := fileOf_eq_ok_iff.mp here
  obtain ⟨named, -, made'⟩ := fileOf_eq_ok_iff.mp there
  obtain ⟨rest, whole⟩ := front
  rcases List.eq_nil_or_concat rest with rfl | ⟨inner, last, rfl⟩
  · rw [← whole, List.append_nil]
  · -- the first file's name would be that of a folder of the second, but it holds a dot
    exfalso
    rw [made, made', List.concat_eq_append, ← List.append_assoc] at whole
    obtain ⟨folders, -⟩ := List.append_inj' whole rfl
    have inside : fileName kind (baseOf name) variant ∈ foldersOf name' := by
      rw [← folders]
      simp
    exact Name.dot_notMem_of_isSegment (isSegment_of_mem_foldersOf named inside)
      (dot_mem_fileName _ _ _)

namespace Directory

variable {d d' : Directory} {kind : Kind} {name : String} {variant : Option String} {path : Path}

/-- The store behind a change, and its answer. -/
def change (d : Directory) : Change → Changed
  | .save kind prompt => d.save kind prompt
  | .delete kind name variant => d.delete kind name variant

/-- A scan has an answer: there is a folder at the root, or nothing. -/
def Scans (d : Directory) : Prop :=
  d.tree.find d.root = .missing ∨ ∃ entries, d.tree.find d.root = .here (.folder entries)

theorem Scans.listing (scans : d.Scans) (fits : d.Fits d.root) (kind : Kind) :
    ∃ l, d.listing kind = .ok l := by
  rcases scans with root | ⟨entries, root⟩
  · exact ⟨[], (listing_eq_ok_iff fits).mpr (.inl ⟨root, rfl⟩)⟩
  · exact ⟨_, (listing_eq_ok_iff fits).mpr (.inr ⟨entries, root, rfl⟩)⟩

/-- Where a path below the root is not blocked by a file, the root is no file either. -/
theorem scans_of_not_blocked (below : path ≠ [])
    (free : d.tree.find (d.root ++ path) ≠ .blocked) : d.Scans := by
  rw [Entry.find_append] at free
  rw [Scans]
  cases root : d.tree.find d.root with
  | missing => exact .inl rfl
  | blocked => rw [root] at free; exact absurd rfl free
  | here e =>
    cases e with
    | folder entries => exact .inr ⟨entries, rfl⟩
    | file t =>
      cases path with
      | nil => exact absurd rfl below
      | cons n path => rw [root] at free; exact absurd rfl free

/-- Where folders are, or may be made, the root is no file. -/
theorem scans_of_free {dirs : Path} (free : d.tree.find (d.root ++ dirs) = .missing ∨
    ∃ es, d.tree.find (d.root ++ dirs) = .here (.folder es)) : d.Scans := by
  have below : dirs ++ [""] ≠ [] := by simp
  refine scans_of_not_blocked below ?_
  rw [← List.append_assoc]
  exact Entry.find_snoc_ne_blocked_iff.mpr free

/-- What a change keeps of a store, if it is about the file at a path below the root. -/
structure ChangedAt (d d' : Directory) (path : Path) : Prop where
  place : d'.place = d.place
  root : d'.root = d.root
  limit : d'.limit = d.limit
  sound : d.Sound → d'.Sound
  scans : d.Scans
  scans' : d'.Scans
  elsewhere : ∀ q, ¬ q <+: path → ¬ path <+: q →
    d'.tree.find (d.root ++ q) = d.tree.find (d.root ++ q)

theorem Sound.withTree (sound : d.Sound) {tree : Entry} (inside : tree.Sound d.Admits) :
    ({ d with tree } : Directory).Sound := ⟨inside, sound.root⟩

/-- Names below the root without a slash are admitted on a path that fits. -/
theorem Sound.admits_below (sound : d.Sound) (plain : ∀ n ∈ path, '/' ∉ n.toList)
    (fits : d.Fits path) : ∀ n ∈ d.root ++ path, d.Admits n :=
  List.forall_mem_append.mpr ⟨sound.root, fun n mem => ⟨plain n mem, fits n mem⟩⟩

/-- Making folders on the way to a file is a change at the file's path. -/
theorem changedAt_makeFolders {dirs : Path} {tree : Entry} (front : dirs <+: path)
    (plain : ∀ n ∈ path, '/' ∉ n.toList) (fits : d.Fits dirs)
    (made : d.tree.makeFolders (d.root ++ dirs) = some tree) :
    ChangedAt d { d with tree } path where
  place := rfl
  root := rfl
  limit := rfl
  sound sound := sound.withTree <| sound.tree.makeFolders
    (sound.admits_below (fun n mem => plain n (front.subset mem)) fits) made
  scans := scans_of_free (Entry.free_of_makeFolders made)
  scans' := scans_of_free (.inr (Entry.find_makeFolders made))
  elsewhere _ off _ := Entry.find_makeFolders_of_not_prefix made fun ahead =>
    off (((List.prefix_append_right_inj _).mp ahead).trans front)

/-- A change of one file is a change at its path. -/
theorem changedAt_edit {now : Found} {tree : Entry} (below : path ≠ [])
    (plain : ∀ n ∈ path, '/' ∉ n.toList) (fits : d.Fits path)
    (edit : Entry.Edit d.tree (d.root ++ path) now tree) : ChangedAt d { d with tree } path where
  place := rfl
  root := rfl
  limit := rfl
  sound sound := sound.withTree <| edit.sound sound.tree (sound.admits_below plain fits)
  scans := scans_of_not_blocked below edit.ne_blocked.1
  scans' := scans_of_not_blocked below (edit.find ▸ edit.ne_blocked.2)
  elsewhere _ off on := edit.find_elsewhere
    (fun front => off ((List.prefix_append_right_inj _).mp front))
    fun front => on ((List.prefix_append_right_inj _).mp front)

theorem ChangedAt.trans {d₁ d₂ d₃ : Directory} (first : ChangedAt d₁ d₂ path)
    (second : ChangedAt d₂ d₃ path) : ChangedAt d₁ d₃ path where
  place := second.place.trans first.place
  root := second.root.trans first.root
  limit := second.limit.trans first.limit
  sound sound := second.sound (first.sound sound)
  scans := first.scans
  scans' := second.scans'
  elsewhere q off on := by
    have here := second.elsewhere q off on
    rw [first.root] at here
    exact here.trans (first.elsewhere q off on)

/-- Writing a file into its folders is a change at its path. -/
theorem changedAt_written {dirs : Path} {file : String} {tree tree' : Entry} {text : Option String}
    (plain : ∀ n ∈ dirs ++ [file], '/' ∉ n.toList) (fits : d.Fits (dirs ++ [file]))
    (made : d.tree.makeFolders (d.root ++ dirs) = some tree)
    (written : tree.writeFile text (d.root ++ (dirs ++ [file])) = some tree') :
    ChangedAt d { d with tree := tree' } (dirs ++ [file]) := by
  have folders : ChangedAt d { d with tree } (dirs ++ [file]) :=
    changedAt_makeFolders (List.prefix_append _ _) plain (fits_append.mp fits).1 made
  exact folders.trans (changedAt_edit (d := { d with tree }) (by simp) plain fits
    (Entry.edit_writeFile written))

theorem dropLast_root_append (root dirs : Path) (file : String) :
    (root ++ (dirs ++ [file])).dropLast = root ++ dirs := by
  rw [← List.append_assoc, List.dropLast_concat]

/-- Writing a source changes nothing, or the store at the path. -/
theorem changedAt_write (rooted : d.Fits d.root) {dirs : Path} {file : String}
    (plain : ∀ n ∈ dirs ++ [file], '/' ∉ n.toList) (source : String) :
    (d.write (d.root ++ (dirs ++ [file])) source).2 = d ∨
      ChangedAt d (d.write (d.root ++ (dirs ++ [file])) source).2 (dirs ++ [file]) := by
  by_cases fits : d.Fits (d.root ++ (dirs ++ [file]))
  · have inside := (fits_append.mp fits).2
    rw [write_of_fits fits, dropLast_root_append]
    split
    · exact .inl rfl
    · split
      · exact .inl rfl
      · next tree made =>
        split
        · exact .inr (changedAt_makeFolders (List.prefix_append _ _) plain
            (fits_append.mp inside).1 made)
        · next tree' written => exact .inr (changedAt_written plain inside made written)
  · obtain ⟨err, outcome⟩ := write_of_not_fits fits source
    rw [outcome, reach_append rooted]
    dsimp only
    split
    · next tree _ made =>
      exact .inr (changedAt_makeFolders (d.reach_prefix _) plain (d.fits_reach _) made)
    · exact .inl rfl

/-- Removing changes nothing, or the store at the path. -/
theorem changedAt_remove (below : path ≠ []) (plain : ∀ n ∈ path, '/' ∉ n.toList) (name : String) :
    (d.remove (d.root ++ path) name).2 = d ∨
      ChangedAt d (d.remove (d.root ++ path) name).2 path := by
  rw [remove]
  split
  · next c here =>
    have fits := (fits_append.mp (find_eq_here_iff.mp here).1).2
    split
    · next tree removed =>
      exact .inr (changedAt_edit below plain fits (Entry.edit_removeFile removed))
    · exact .inl rfl
  · exact .inl rfl

/-- A sound source is written on a path that fits where neither a file nor a folder is in the
way. -/
theorem exists_write {dirs : Path} {file source : String} {prompt : ParsedPrompt}
    (plain : ∀ n ∈ dirs ++ [file], '/' ∉ n.toList) (fits : d.Fits (d.root ++ (dirs ++ [file])))
    (checked : checkSource source = .ok prompt)
    (free : d.tree.find (d.root ++ (dirs ++ [file])) ≠ .blocked)
    (noFolder : ∀ es, d.tree.find (d.root ++ (dirs ++ [file])) ≠ .here (.folder es)) :
    ∃ tree, d.write (d.root ++ (dirs ++ [file])) source = (.ok (), { d with tree }) ∧
      ChangedAt d { d with tree } (dirs ++ [file]) ∧
      tree.find (d.root ++ (dirs ++ [file])) = .here (.file (some source)) := by
  rw [← List.append_assoc] at free
  obtain ⟨tree, made⟩ := Entry.exists_makeFolders (Entry.find_snoc_ne_blocked_iff.mp free)
  have noFolder' : ∀ es, tree.find (d.root ++ dirs ++ [file]) ≠ .here (.folder es) := fun es => by
    rw [Entry.find_makeFolders_of_not_prefix made (Entry.snoc_not_front _ _), List.append_assoc]
    exact noFolder es
  obtain ⟨tree', written⟩ :=
    Entry.exists_writeFile (some source) (Entry.find_makeFolders made) noFolder'
  rw [List.append_assoc] at written
  refine ⟨tree', ?_, changedAt_written plain (fits_append.mp fits).2 made written,
    (Entry.edit_writeFile written).find⟩
  simp only [write_of_fits fits, checked, dropLast_root_append, made, written]

/-- What was written is sound, and found where it was written. -/
theorem found_of_write {source : String} (written : (d.write path source).1 = .ok ()) :
    (∃ prompt, checkSource source = .ok prompt) ∧ d.Fits path ∧
      (d.write path source).2.root = d.root ∧
      (d.write path source).2.find path = .here (.file (some source)) := by
  by_cases fits : d.Fits path
  · rw [write_of_fits fits] at written ⊢
    cases checked : checkSource source with
    | error err =>
      rw [checked] at written
      cases written
    | ok prompt =>
      rw [checked] at written
      dsimp only at written ⊢
      refine ⟨⟨prompt, rfl⟩, fits, ?_⟩
      cases made : d.tree.makeFolders path.dropLast with
      | none =>
        rw [made] at written
        cases written
      | some tree =>
        rw [made] at written
        dsimp only at written ⊢
        cases edited : tree.writeFile (some source) path with
        | none =>
          rw [edited] at written
          cases written
        | some tree' =>
          refine ⟨rfl, ?_⟩
          rw [find_of_fits (d := { d with tree := tree' }) fits]
          exact (Entry.edit_writeFile edited).find
  · obtain ⟨err, outcome⟩ := write_of_not_fits fits source
    rw [outcome] at written
    cases written

/-- A file that is found is removed. -/
theorem exists_remove {dirs : Path} {file : String} {text : Option String}
    (plain : ∀ n ∈ dirs ++ [file], '/' ∉ n.toList) (fits : d.Fits (d.root ++ (dirs ++ [file])))
    (stands : d.FileAt (dirs ++ [file]) text) (name : String) :
    ∃ tree, d.remove (d.root ++ (dirs ++ [file])) name = (.ok (), { d with tree }) ∧
      ChangedAt d { d with tree } (dirs ++ [file]) ∧
      tree.find (d.root ++ (dirs ++ [file])) = .missing := by
  have here : d.tree.find (d.root ++ dirs ++ [file]) = .here (.file text) := by
    rw [List.append_assoc]
    exact stands
  obtain ⟨tree, removed⟩ := Entry.exists_removeFile ⟨text, here⟩
  rw [List.append_assoc] at here removed
  have edit := Entry.edit_removeFile removed
  refine ⟨tree, ?_, changedAt_edit (by simp) plain (fits_append.mp fits).2 edit, edit.find⟩
  simp only [remove, find_of_fits fits, here, removed]

theorem fits_of_remove {name : String} (removed : (d.remove path name).1 = .ok ()) :
    d.Fits path := by
  rw [remove] at removed
  cases here : d.find path with
  | here c => exact (find_eq_here_iff.mp here).1
  | missing | blocked => rw [here] at removed; cases removed

theorem remove_of_missing (missing : d.find (d.root ++ path) = .missing) (name : String) :
    d.remove (d.root ++ path) name = (.error (.fault (.notFound name)), d) := by
  simp only [remove, missing]

theorem change_of_badName {c : Change} {err : Name.NameError} (refused : c.key.file = .error err) :
    d.change c = (.error (.badName err), d) := by
  cases c with
  | save kind p => exact save_of_badName refused
  | delete kind name variant => exact delete_of_badName refused

theorem change_save {p : StoredPrompt} (kept : (Change.save kind p).key.file = .ok path) :
    d.change (.save kind p) = d.write (d.root ++ path) p.source := by
  have addressed : fileOf kind p.reference.name p.reference.variant = .ok path := kept
  simp only [change, save, address, locate_of_fileOf addressed]

theorem change_delete (kept : (Change.delete kind name variant).key.file = .ok path) :
    d.change (.delete kind name variant) = d.remove (d.root ++ path) name := by
  have addressed : fileOf kind name variant = .ok path := kept
  simp only [change, delete, address, locate_of_fileOf addressed]

/-- A change leaves the store as it is, or it is one at the file of its name. -/
theorem change_cases (rooted : d.Fits d.root) (c : Change) :
    (d.change c).2 = d ∨ ∃ path, c.key.file = .ok path ∧ ChangedAt d (d.change c).2 path := by
  cases file : c.key.file with
  | error err => exact .inl (congrArg Prod.snd (change_of_badName file))
  | ok path =>
    have plain := slash_notMem_of_fileOf file
    obtain ⟨-, -, made⟩ := fileOf_eq_ok_iff.mp file
    cases c with
    | save kind p =>
      rw [change_save file]
      subst made
      exact (changedAt_write rooted plain p.source).imp_right fun changed => ⟨_, rfl, changed⟩
    | delete kind name variant =>
      rw [change_delete file]
      exact (changedAt_remove (by rw [made]; simp) plain name).imp_right
        fun changed => ⟨path, rfl, changed⟩

/-- What is saved was checked, and is loaded as it was saved. -/
theorem load_of_save {p : StoredPrompt} (saved : (d.save kind p).1 = .ok ()) :
    (∃ prompt, checkSource p.source = .ok prompt) ∧
      (d.save kind p).2.load kind p.reference.name p.reference.variant =
        .ok (some ⟨⟨p.reference.name, p.reference.variant, none⟩, p.source⟩) := by
  cases kept : fileOf kind p.reference.name p.reference.variant with
  | error err =>
    rw [save_of_badName kept] at saved
    cases saved
  | ok path =>
    have writes : d.save kind p = d.write (d.root ++ path) p.source := change_save kept
    rw [writes] at saved ⊢
    obtain ⟨sound, -, same, here⟩ := found_of_write saved
    refine ⟨sound, ?_⟩
    rw [load_of_fileOf kept, same, here]
    rfl

/-! ### What a change leaves alone -/

theorem takes_of_limit (same : d'.limit = d.limit) : d'.takes = d.takes := by
  funext name
  rw [takes, takes, same]

/-- A change leaves the limit of names as it is. -/
theorem ChangedAt.fits_iff (changed : ChangedAt d d' path) {below : Path} :
    d'.Fits (d'.root ++ below) ↔ d.Fits (d.root ++ below) := by
  rw [Fits, Fits, takes_of_limit changed.limit, changed.root]

/-- What is found at the path of another file is as it was. -/
theorem ChangedAt.find_of_ne {kind' : Kind} {name' : String} {variant' : Option String}
    {path' : Path} (changed : ChangedAt d d' path) (here : fileOf kind name variant = .ok path)
    (there : fileOf kind' name' variant' = .ok path') (ne : path' ≠ path) :
    d'.tree.find (d'.root ++ path') = d.tree.find (d.root ++ path') := by
  rw [changed.root]
  exact changed.elsewhere path' (fun front => ne (eq_of_front there here front))
    fun front => ne (eq_of_front here there front).symm

/-- The file of a name is on a path that fits. -/
def TakesFile (d : Directory) (kind : Kind) (name : String) (variant : Option String) : Prop :=
  ∀ path, fileOf kind name variant = .ok path → d.Fits (d.root ++ path)

/-- What is loaded is on a path that fits. -/
theorem takesFile_of_load {p : StoredPrompt} (loaded : d.load kind name variant = .ok (some p)) :
    d.TakesFile kind name variant := by
  intro path kept
  rw [load_of_fileOf kept] at loaded
  cases here : d.find (d.root ++ path) with
  | here e => exact (find_eq_here_iff.mp here).1
  | missing | blocked => rw [here] at loaded; cases loaded

/-- What is kept in another file is loaded as before, if its path fits. -/
theorem load_of_apart {c : Change} (rooted : d.Fits d.root) (takes : d.TakesFile kind name variant)
    (apart : ∀ path, c.key.file = .ok path → fileOf kind name variant ≠ .ok path) :
    (d.change c).2.load kind name variant = d.load kind name variant := by
  rcases change_cases rooted c with same | ⟨path, file, changed⟩
  · rw [same]
  · cases kept : fileOf kind name variant with
    | error err => rw [load_of_badName kept, load_of_badName kept]
    | ok path' =>
      have ne : path' ≠ path := fun same => apart path file (same ▸ kept)
      have fits := takes path' kept
      have fits' := changed.fits_iff.mpr fits
      rw [load_of_fileOf kept, load_of_fileOf kept, find_of_fits fits, find_of_fits fits',
        changed.find_of_ne file kept ne]
      simp only [answerOf, pathText, changed.place, changed.root]

/-- What is loaded of another file is what was loaded before. -/
theorem load_eq_some_iff_of_apart {c : Change} (rooted : d.Fits d.root)
    (apart : ∀ path, c.key.file = .ok path → fileOf kind name variant ≠ .ok path)
    (p : StoredPrompt) : (d.change c).2.load kind name variant = .ok (some p) ↔
      d.load kind name variant = .ok (some p) := by
  by_cases takes : d.TakesFile kind name variant
  · rw [load_of_apart rooted takes apart]
  · rcases change_cases rooted c with same | ⟨path, file, changed⟩
    · rw [same]
    · refine iff_of_false (fun loaded => takes ?_) fun loaded => takes (takesFile_of_load loaded)
      exact fun path' kept => changed.fits_iff.mp (takesFile_of_load loaded path' kept)

/-- If no file that is listed is the one that changes, the listing is as before. -/
theorem list_of_apart {c : Change} (sound : d.Sound) (apart : ∀ name variant path,
      Unmarked kind name → c.key.file = .ok path → fileOf kind name variant ≠ .ok path)
    (o : ListOptions) : (d.change c).2.list kind o = d.list kind o := by
  rcases change_cases sound.fits_root c with same | ⟨path, file, changed⟩
  · rw [same]
  · obtain ⟨l, before⟩ := changed.scans.listing sound.fits_root kind
    obtain ⟨l', after⟩ := changed.scans'.listing (changed.sound sound).fits_root kind
    have equal : l' = l := by
      refine eq_of_mem_iff (pairwise_listing (changed.sound sound) after)
        (pairwise_listing sound before) fun r => ?_
      rw [mem_listing_iff (changed.sound sound) after, mem_listing_iff sound before]
      refine and_congr_right fun _ => and_congr_right fun unmarked =>
        exists_congr fun path' => and_congr_right fun kept => ?_
      have ne : path' ≠ path := fun same => apart _ _ path unmarked file (same ▸ kept)
      simp only [FileAt, changed.find_of_ne file kept ne]
    simp only [list, before, after, equal]

end Directory

end Promptry.Store
