import Promptry.Proofs.Table
import Promptry.Store.Tree

/-!
What is found in a tree once folders were made and a file was written or removed: the path itself
has changed, paths that do not meet it have not. A tree is sound if the names in each of its folders
are distinct and admitted; all changes keep that. Main statements:
`find_makeFolders_of_not_prefix`, `Edit.find`, `Edit.find_elsewhere` and `Edit.sound`.
-/

namespace Promptry.Store.Entry

variable {e e' : Entry} {path q : Path} {text : Option String}

/-! ### Finding on the way -/

theorem find_append (e : Entry) (p q : Path) :
    e.find (p ++ q) = match e.find p with
      | .here c => c.find q
      | .missing => .missing
      | .blocked => .blocked := by
  induction p generalizing e with
  | nil => rw [find_nil, List.nil_append]
  | cons name p ih =>
    cases e with
    | file t => rfl
    | folder entries =>
      rw [List.cons_append, find, find]
      cases Table.get? entries name with
      | none => rfl
      | some c => exact ih c

/-- Where a path is blocked, a file stands on the way. -/
theorem exists_file_of_blocked (blocked : e.find path = .blocked) :
    ∃ front name rest t, path = front ++ name :: rest ∧ e.find front = .here (.file t) := by
  induction path generalizing e with
  | nil => rw [find_nil] at blocked; cases blocked
  | cons name path ih =>
    cases e with
    | file t => exact ⟨[], name, path, t, rfl, rfl⟩
    | folder entries =>
      rw [find] at blocked
      cases here : Table.get? entries name with
      | none => rw [here] at blocked; cases blocked
      | some c =>
        rw [here] at blocked
        obtain ⟨front, n, rest, t, rfl, file⟩ := ih blocked
        exact ⟨name :: front, n, rest, t, rfl, by rw [find, here]; exact file⟩

/-! ### Making folders -/

theorem find_folders_of_not_prefix (off : ¬ q <+: path) : (folders path).find q = .missing := by
  induction path generalizing q with
  | nil =>
    cases q with
    | nil => exact absurd List.nil_prefix off
    | cons n q => rfl
  | cons name path ih =>
    cases q with
    | nil => exact absurd List.nil_prefix off
    | cons n q =>
      rw [folders, find, Table.get?]
      split
      · next c here =>
        split at here
        · next same =>
          cases here
          exact ih fun inside => off (List.cons_prefix_cons.mpr ⟨same.symm, inside⟩)
        · cases here
      · rfl

/-- Making folders changes nothing but the way along which they are made. -/
theorem find_makeFolders_of_not_prefix (made : e.makeFolders path = some e')
    (off : ¬ q <+: path) : e'.find q = e.find q := by
  induction path generalizing e e' q with
  | nil =>
    cases e with
    | file t => cases made
    | folder entries => cases made; rfl
  | cons name path ih =>
    cases e with
    | file t => cases made
    | folder entries =>
      cases q with
      | nil => exact absurd List.nil_prefix off
      | cons n q =>
        rw [makeFolders] at made
        by_cases same : n = name
        · subst same
          have inside : ¬ q <+: path := fun inside =>
            off (List.cons_prefix_cons.mpr ⟨rfl, inside⟩)
          cases here : Table.get? entries n with
          | some c =>
            rw [here] at made
            obtain ⟨c', below, rfl⟩ := Option.map_eq_some_iff.mp made
            rw [find, find, here, Table.get?_insert_self]
            exact ih below inside
          | none =>
            rw [here] at made
            cases made
            rw [find, find, here, Table.get?_insert_self]
            exact find_folders_of_not_prefix inside
        · cases here : Table.get? entries name with
          | some c =>
            rw [here] at made
            obtain ⟨c', below, rfl⟩ := Option.map_eq_some_iff.mp made
            rw [find, find, Table.get?_insert_of_ne same]
          | none =>
            rw [here] at made
            cases made
            rw [find, find, Table.get?_insert_of_ne same]

theorem snoc_not_front (path : Path) (name : String) : ¬ path ++ [name] <+: path := fun front => by
  have shorter := front.length_le
  rw [List.length_append, List.length_singleton] at shorter
  omega

/-- Folders can be made where nothing stands in the way. -/
theorem exists_makeFolders
    (free : e.find path = .missing ∨ ∃ es, e.find path = .here (.folder es)) :
    ∃ e', e.makeFolders path = some e' := by
  induction path generalizing e with
  | nil =>
    rw [find_nil] at free
    rcases free with free | ⟨es, free⟩
    · cases free
    · cases free
      exact ⟨_, rfl⟩
  | cons name path ih =>
    cases e with
    | file t => rcases free with free | ⟨es, free⟩ <;> cases free
    | folder entries =>
      rw [makeFolders]
      cases here : Table.get? entries name with
      | none => exact ⟨_, rfl⟩
      | some c =>
        simp only [find, here] at free
        obtain ⟨c', below⟩ := ih free
        exact ⟨.folder (Table.insert entries name c'), by simp only [below, Option.map_some]⟩

/-- Folders are made only where nothing stands in the way. -/
theorem free_of_makeFolders (made : e.makeFolders path = some e') :
    e.find path = .missing ∨ ∃ es, e.find path = .here (.folder es) := by
  induction path generalizing e e' with
  | nil =>
    cases e with
    | file t => cases made
    | folder entries => exact .inr ⟨entries, rfl⟩
  | cons name path ih =>
    cases e with
    | file t => cases made
    | folder entries =>
      rw [makeFolders] at made
      rw [find]
      cases here : Table.get? entries name with
      | none => exact .inl rfl
      | some c =>
        rw [here] at made
        obtain ⟨c', below, -⟩ := Option.map_eq_some_iff.mp made
        exact ih below

/-- Where a folder stands, none is made. -/
theorem makeFolders_of_folder {es : List (String × Entry)}
    (there : e.find path = .here (.folder es)) : e.makeFolders path = some e := by
  induction path generalizing e with
  | nil =>
    rw [find_nil] at there
    cases there
    rfl
  | cons name path ih =>
    cases e with
    | file t => cases there
    | folder entries =>
      rw [find] at there
      cases here : Table.get? entries name with
      | none => rw [here] at there; cases there
      | some c =>
        rw [here] at there
        simp only [makeFolders, here, ih there, Option.map_some, Table.insert_of_get? here]

/-! ### One folder after the other -/

section Child

variable {entries : List (String × Entry)} {name : String} {c : Entry}
  (here : Table.get? entries name = some c) (path : Path)

include here

theorem makeFolder_child : (folder entries).makeFolder (name :: path) =
    (c.makeFolder path).map fun c => folder (Table.insert entries name c) := by
  simp only [makeFolder, here]

theorem ensureFolder_child : (folder entries).ensureFolder (name :: path) =
    (c.ensureFolder path).map fun c => folder (Table.insert entries name c) := by
  have has : (folder entries).hasFolder (name :: path) = c.hasFolder path := by
    simp only [hasFolder, find, here]
  rw [ensureFolder, ensureFolder, makeFolder_child here, has]
  cases c.makeFolder path with
  | ok c' => rfl
  | error o =>
    cases c.hasFolder path with
    | false => rfl
    | true => simp [Except.map, Table.insert_of_get? here]

end Child

theorem makeFolder_folders (path : Path) (name : String) :
    (folders path).makeFolder (path ++ [name]) = .ok (folders (path ++ [name])) := by
  induction path with
  | nil => rfl
  | cons n path ih =>
    have here : Table.get? [(n, folders path)] n = some (folders path) := if_pos rfl
    rw [List.cons_append, folders, makeFolder_child here, ih]
    simp only [Except.map, Table.insert, if_true, folders]

/-- Where the parent is there, or something is in the way, one step is all there is to make. -/
theorem makeFolders_of_reached (reached : e.makeFolder path ≠ .error .noParent) :
    e.makeFolders path = e.ensureFolder path := by
  induction path generalizing e with
  | nil => cases e <;> rfl
  | cons name path ih =>
    cases e with
    | file t => rfl
    | folder entries =>
      rw [makeFolders]
      cases here : Table.get? entries name with
      | some c =>
        rw [makeFolder_child here] at reached
        have inside : c.makeFolder path ≠ .error .noParent := fun unreached =>
          reached (by rw [unreached]; rfl)
        simp only [ensureFolder_child here, ih inside]
      | none =>
        cases path with
        | nil => simp only [ensureFolder, makeFolder, here, folders]
        | cons n path => exact absurd (by simp only [makeFolder, here]) reached

/-- Folders made at once are those of the path but its last name, and then the last one. -/
theorem makeFolders_snoc (e : Entry) (path : Path) (name : String) :
    e.makeFolders (path ++ [name]) =
      (e.makeFolders path).bind fun e' => e'.ensureFolder (path ++ [name]) := by
  induction path generalizing e with
  | nil =>
    cases e with
    | file t => rfl
    | folder entries =>
      refine makeFolders_of_reached ?_
      simp only [List.nil_append, makeFolder]
      cases here : Table.get? entries name with
      | none => exact nofun
      | some c => cases c <;> exact nofun
  | cons n path ih =>
    cases e with
    | file t => rfl
    | folder entries =>
      rw [List.cons_append, makeFolders, makeFolders]
      cases Table.get? entries n with
      | none =>
        rw [Option.bind_some, ensureFolder_child (Table.get?_insert_self _ _ _), ensureFolder,
          makeFolder_folders]
        simp only [Option.map_some, Table.insert_insert_self]
      | some c =>
        simp only [ih, Option.map_bind, Option.bind_map, Function.comp_def,
          ensureFolder_child (Table.get?_insert_self _ _ _), Table.insert_insert_self]

theorem find_missing_of_noParent (unreached : e.makeFolder path = .error .noParent) :
    e.find path = .missing := by
  induction path generalizing e with
  | nil => cases e <;> cases unreached
  | cons name path ih =>
    cases e with
    | file t => cases unreached
    | folder entries =>
      cases here : Table.get? entries name with
      | none => simp only [find, here]
      | some c =>
        rw [makeFolder_child here] at unreached
        cases inside : c.makeFolder path with
        | ok c' => rw [inside] at unreached; cases unreached
        | error o =>
          rw [inside] at unreached
          cases unreached
          simp only [find, here, ih inside]

/-- Folders made one after the other are those made at once, and none is left behind where not all
can be made: behind a step that is possible, all others are. -/
theorem createFolders_eq (e : Entry) (names : List String) :
    e.createFolders names = e.outcome (e.makeFolders names.reverse) := by
  induction names with
  | nil => cases e <;> rfl
  | cons name above ih =>
    rw [createFolders, List.reverse_cons]
    split
    · next unreached =>
      obtain ⟨e₂, made⟩ := exists_makeFolders (.inl (find_missing_of_noParent unreached))
      obtain ⟨e₁, first, last⟩ :=
        Option.bind_eq_some_iff.mp ((makeFolders_snoc _ _ _).symm.trans made)
      rw [ih, made, first]
      simp only [outcome, last]
    · next reached => rw [makeFolders_of_reached reached]

/-- A name is blocked unless it is looked up in a folder, or where nothing stands. -/
theorem find_snoc_ne_blocked_iff {name : String} : e.find (path ++ [name]) ≠ .blocked ↔
    e.find path = .missing ∨ ∃ es, e.find path = .here (.folder es) := by
  rw [find_append]
  cases e.find path with
  | missing => simp
  | blocked => simp
  | here c =>
    cases c with
    | file t => simp [find]
    | folder es =>
      simp only [find]
      cases Table.get? es name <;> simp

/-! ### Writing and removing a file -/

/-- A change to one file: what is found at its path afterwards, and the tree then. -/
inductive Edit : Entry → Path → Found → Entry → Prop where
  | write {entries : List (String × Entry)} {name : String} (text : Option String)
      (free : ∀ es, Table.get? entries name ≠ some (.folder es)) :
      Edit (.folder entries) [name] (.here (.file text))
        (.folder (Table.insert entries name (.file text)))
  | remove {entries : List (String × Entry)} {name : String} {text : Option String}
      (stood : Table.get? entries name = some (.file text)) :
      Edit (.folder entries) [name] .missing (.folder (Table.erase entries name))
  | deeper {entries : List (String × Entry)} {name : String} {c c' : Entry} {path : Path}
      {now : Found} (stood : Table.get? entries name = some c) (inside : Edit c path now c') :
      Edit (.folder entries) (name :: path) now (.folder (Table.insert entries name c'))

theorem edit_writeFile (written : e.writeFile text path = some e') :
    Edit e path (.here (.file text)) e' := by
  induction path generalizing e e' with
  | nil => cases e <;> cases written
  | cons name path ih =>
    cases e with
    | file t => cases path <;> cases written
    | folder entries =>
      cases path with
      | nil =>
        rw [writeFile] at written
        split at written
        · cases written
        · next free =>
          cases written
          exact .write text free
      | cons n path =>
        rw [writeFile] at written
        · split at written
          · next c stood =>
            obtain ⟨c', inside, rfl⟩ := Option.map_eq_some_iff.mp written
            exact .deeper stood (ih inside)
          · cases written
        · exact nofun

theorem edit_removeFile (removed : e.removeFile path = some e') : Edit e path .missing e' := by
  induction path generalizing e e' with
  | nil => cases e <;> cases removed
  | cons name path ih =>
    cases e with
    | file t => cases path <;> cases removed
    | folder entries =>
      cases path with
      | nil =>
        rw [removeFile] at removed
        split at removed
        · next stood =>
          cases removed
          exact .remove stood
        · cases removed
      | cons n path =>
        rw [removeFile] at removed
        · split at removed
          · next c stood =>
            obtain ⟨c', inside, rfl⟩ := Option.map_eq_some_iff.mp removed
            exact .deeper stood (ih inside)
          · cases removed
        · exact nofun

variable {now : Found}

theorem Edit.find (edit : Edit e path now e') : e'.find path = now := by
  induction edit with
  | write text free => simp only [Entry.find, Table.get?_insert_self]
  | remove stood => simp only [Entry.find, Table.get?_erase_self]
  | deeper stood inside ih => simp only [Entry.find, Table.get?_insert_self, ih]

/-- Paths that do not meet the one that changes are as they were. -/
theorem Edit.find_elsewhere (edit : Edit e path now e') {q : Path} (off : ¬ q <+: path)
    (on : ¬ path <+: q) : e'.find q = e.find q := by
  induction edit generalizing q with
  | write | remove =>
    cases q with
    | nil => exact absurd List.nil_prefix off
    | cons n q =>
      have ne : n ≠ _ := fun same => on (same ▸ List.prefix_append [n] q)
      simp only [Entry.find, Table.get?_insert_of_ne ne, Table.get?_erase_of_ne ne]
  | @deeper entries name c c' path now stood inside ih =>
    cases q with
    | nil => exact absurd List.nil_prefix off
    | cons n q =>
      by_cases same : n = name
      · subst same
        simp only [Entry.find, stood, Table.get?_insert_self]
        exact ih (fun front => off (List.cons_prefix_cons.mpr ⟨rfl, front⟩))
          fun front => on (List.cons_prefix_cons.mpr ⟨rfl, front⟩)
      · simp only [Entry.find, Table.get?_insert_of_ne same]

/-- A folder blocks no name. -/
theorem find_folder_ne_blocked (entries : List (String × Entry)) (name : String) :
    (Entry.folder entries).find [name] ≠ .blocked := by
  rw [← List.nil_append [name]]
  exact find_snoc_ne_blocked_iff.mpr (.inr ⟨entries, rfl⟩)

/-- No file stands in the way of a change, before and afterwards. -/
theorem Edit.ne_blocked (edit : Edit e path now e') : e.find path ≠ .blocked ∧ now ≠ .blocked := by
  induction edit with
  | @write entries name text free =>
    exact ⟨find_folder_ne_blocked entries name, nofun⟩
  | @remove entries name text stood =>
    exact ⟨find_folder_ne_blocked entries name, nofun⟩
  | deeper stood inside ih =>
    rw [Entry.find, stood]
    exact ih

/-- A file can be written into a folder where no folder has its name. -/
theorem exists_writeFile {name : String} (text : Option String)
    (inside : ∃ es, e.find path = .here (.folder es))
    (free : ∀ es, e.find (path ++ [name]) ≠ .here (.folder es)) :
    ∃ e', e.writeFile text (path ++ [name]) = some e' := by
  induction path generalizing e with
  | nil =>
    obtain ⟨es, here⟩ := inside
    rw [find_nil] at here
    cases here
    rw [List.nil_append, writeFile]
    split
    · next inner stood =>
      exact absurd (by simp only [List.nil_append, find, stood]) (free inner)
    · exact ⟨_, rfl⟩
  | cons n path ih =>
    obtain ⟨es, here⟩ := inside
    cases e with
    | file t => cases here
    | folder entries =>
      rw [find] at here
      cases stood : Table.get? entries n with
      | none => rw [stood] at here; cases here
      | some c =>
        rw [stood] at here
        have free' : ∀ es, c.find (path ++ [name]) ≠ .here (.folder es) := fun es there =>
          free es (by rw [List.cons_append, find, stood]; exact there)
        obtain ⟨c', below⟩ := ih ⟨es, here⟩ free'
        refine ⟨.folder (Table.insert entries n c'), ?_⟩
        rw [List.cons_append, writeFile]
        · simp only [stood, below, Option.map_some]
        · simp

/-- A file that stands somewhere can be removed. -/
theorem exists_removeFile {name : String}
    (stands : ∃ t, e.find (path ++ [name]) = .here (.file t)) :
    ∃ e', e.removeFile (path ++ [name]) = some e' := by
  obtain ⟨t, here⟩ := stands
  induction path generalizing e with
  | nil =>
    cases e with
    | file s => cases here
    | folder entries =>
      rw [List.nil_append, find] at here
      cases stood : Table.get? entries name with
      | none => rw [stood] at here; cases here
      | some c =>
        simp only [stood, find_nil] at here
        cases here
        exact ⟨.folder (Table.erase entries name), by
          simp only [List.nil_append, removeFile, stood]⟩
  | cons n path ih =>
    cases e with
    | file s => cases here
    | folder entries =>
      rw [List.cons_append, find] at here
      cases stood : Table.get? entries n with
      | none => rw [stood] at here; cases here
      | some c =>
        rw [stood] at here
        obtain ⟨c', below⟩ := ih here
        refine ⟨.folder (Table.insert entries n c'), ?_⟩
        rw [List.cons_append, removeFile]
        · simp only [stood, below, Option.map_some]
        · simp

/-! ### Sound trees -/

mutual

/-- The names in each folder are distinct, and such as are admitted. -/
def Sound (admits : String → Prop) : Entry → Prop
  | .file _ => True
  | .folder entries => (Table.keys entries).Nodup ∧ SoundIn admits entries

def SoundIn (admits : String → Prop) : List (String × Entry) → Prop
  | [] => True
  | (name, e) :: rest => admits name ∧ e.Sound admits ∧ SoundIn admits rest

end

variable {admits : String → Prop}

theorem soundIn_iff {entries : List (String × Entry)} :
    SoundIn admits entries ↔ ∀ entry ∈ entries, admits entry.1 ∧ entry.2.Sound admits := by
  induction entries with
  | nil => simp [SoundIn]
  | cons entry rest ih => rw [SoundIn, ih, List.forall_mem_cons, and_assoc]

theorem Sound.child {entries : List (String × Entry)} {name : String} {c : Entry}
    (sound : (folder entries).Sound admits) (stood : Table.get? entries name = some c) :
    admits name ∧ c.Sound admits :=
  soundIn_iff.mp sound.2 _ (Table.mem_of_get? stood)

/-- A sound tree stays sound with another sound entry in it. -/
theorem Sound.insert {entries : List (String × Entry)} {name : String} {c : Entry}
    (sound : (folder entries).Sound admits) (admitted : admits name) (inside : c.Sound admits) :
    (folder (Table.insert entries name c)).Sound admits := by
  refine ⟨Table.nodup_keys_insert sound.1 name c, soundIn_iff.mpr fun entry mem => ?_⟩
  rcases Table.mem_of_mem_insert mem with old | rfl
  · exact soundIn_iff.mp sound.2 entry old
  · exact ⟨admitted, inside⟩

theorem Sound.erase {entries : List (String × Entry)} (sound : (folder entries).Sound admits)
    (name : String) : (folder (Table.erase entries name)).Sound admits :=
  ⟨Table.nodup_keys_erase sound.1 name,
    soundIn_iff.mpr fun entry mem => soundIn_iff.mp sound.2 entry (List.mem_filter.mp mem).1⟩

theorem Sound.find {c : Entry} (sound : e.Sound admits) (here : e.find path = .here c) :
    c.Sound admits := by
  induction path generalizing e with
  | nil =>
    rw [find_nil] at here
    cases here
    exact sound
  | cons name path ih =>
    cases e with
    | file t => cases here
    | folder entries =>
      rw [Entry.find] at here
      cases stood : Table.get? entries name with
      | none => rw [stood] at here; cases here
      | some c =>
        rw [stood] at here
        exact ih (sound.child stood).2 here

/-- The names on the way to what stands in a sound tree are admitted. -/
theorem Sound.admits_of_find {c : Entry} (sound : e.Sound admits) (here : e.find path = .here c) :
    ∀ name ∈ path, admits name := by
  induction path generalizing e with
  | nil => exact List.forall_mem_nil _
  | cons name path ih =>
    cases e with
    | file t => cases here
    | folder entries =>
      rw [Entry.find] at here
      cases stood : Table.get? entries name with
      | none => rw [stood] at here; cases here
      | some c =>
        rw [stood] at here
        obtain ⟨first, inside⟩ := sound.child stood
        exact List.forall_mem_cons.mpr ⟨first, ih inside here⟩

theorem sound_folders (admitted : ∀ name ∈ path, admits name) : (folders path).Sound admits := by
  induction path with
  | nil => exact ⟨List.nodup_nil, trivial⟩
  | cons name path ih =>
    obtain ⟨here, below⟩ := List.forall_mem_cons.mp admitted
    exact ⟨List.nodup_singleton name, here, ih below, trivial⟩

theorem Sound.makeFolders (sound : e.Sound admits) (admitted : ∀ name ∈ path, admits name)
    (made : e.makeFolders path = some e') : e'.Sound admits := by
  induction path generalizing e e' with
  | nil =>
    cases e with
    | file t => cases made
    | folder entries => cases made; exact sound
  | cons name path ih =>
    obtain ⟨first, rest⟩ := List.forall_mem_cons.mp admitted
    cases e with
    | file t => cases made
    | folder entries =>
      rw [Entry.makeFolders] at made
      split at made
      · next c stood =>
        obtain ⟨c', below, rfl⟩ := Option.map_eq_some_iff.mp made
        exact sound.insert first (ih (sound.child stood).2 rest below)
      · cases made
        exact sound.insert first (sound_folders rest)

theorem Edit.sound {now : Found} (edit : Edit e path now e') (sound : e.Sound admits)
    (admitted : ∀ name ∈ path, admits name) : e'.Sound admits := by
  induction edit with
  | write text free => exact sound.insert (admitted _ List.mem_cons_self) trivial
  | remove stood => exact sound.erase _
  | deeper stood inside ih =>
    obtain ⟨first, rest⟩ := List.forall_mem_cons.mp admitted
    exact sound.insert first (ih (sound.child stood).2 rest)

end Promptry.Store.Entry
