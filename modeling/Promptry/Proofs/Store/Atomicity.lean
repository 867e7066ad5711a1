import Promptry.Proofs.Store.Changes

/-!
What a change does to the tree as a whole, told by what stands at each path. A change that fails
leaves everything as it was, also no folder that was made on the way to the failure, unless a name
on the path of its file is too long: folders that a save has made in front of that name stay. One
that succeeds is seen at the path of its file, and for a save at the folders on the way to it where
nothing stood; and it is known from the tree before which of the two it is. Main statements:
`write_cases`, `succeeds_iff` and `change_all_or_nothing`.
-/

namespace Promptry.Store

/-- A file with its text, or a folder with whatever is in it. -/
inductive Node where
  | file (text : Option String)
  | folder
  deriving DecidableEq, Repr

namespace Entry

variable {e e' : Entry} {path q : Path}

def node : Entry → Node
  | .file text => .file text
  | .folder _ => .folder

/-- What stands at a path, if anything does. -/
def standing (e : Entry) (path : Path) : Option Node :=
  match e.find path with
  | .here c => some c.node
  | _ => none

theorem standing_of_find {c : Entry} (here : e.find path = .here c) :
    e.standing path = some c.node := by
  rw [standing, here]

theorem find_of_standing_file {text : Option String}
    (stands : e.standing path = some (.file text)) : e.find path = .here (.file text) := by
  rw [standing] at stands
  cases here : e.find path with
  | missing => rw [here] at stands; cases stands
  | blocked => rw [here] at stands; cases stands
  | here c =>
    rw [here] at stands
    cases c <;> cases stands
    rfl

theorem standing_child {entries : List (String × Entry)} {name : String} {c : Entry}
    (here : Table.get? entries name = some c) (path : Path) :
    (folder entries).standing (name :: path) = c.standing path := by
  simp only [standing, find, here]

/-- On the way to a folder there are folders. -/
theorem standing_of_front {es : List (String × Entry)} (there : e.find path = .here (.folder es))
    (front : q <+: path) : e.standing q = some .folder := by
  obtain ⟨rest, rfl⟩ := front
  rw [find_append] at there
  rw [standing]
  cases here : e.find q with
  | missing => rw [here] at there; cases there
  | blocked => rw [here] at there; cases there
  | here c =>
    cases c with
    | folder entries => rfl
    | file t =>
      rw [here] at there
      cases rest <;> cases there

/-- On the way to where nothing stands in the way there are folders, or nothing. -/
theorem standing_of_free (free : e.find path = .missing ∨ ∃ es, e.find path = .here (.folder es))
    (front : q <+: path) : e.standing q = some .folder ∨ e.standing q = none := by
  rcases free with missing | ⟨es, there⟩
  · obtain ⟨rest, rfl⟩ := front
    rw [find_append] at missing
    rw [standing]
    cases here : e.find q with
    | missing => exact .inr rfl
    | blocked => exact .inr rfl
    | here c =>
      cases c with
      | folder entries => exact .inl rfl
      | file t =>
        rw [here] at missing
        cases rest <;> cases missing
  · exact .inl (standing_of_front there front)

/-- Where no file stands on the way, nothing is in the way. -/
theorem find_ne_blocked (clear : ∀ q, q <+: path → q ≠ path → ∀ t, e.standing q ≠ some (.file t)) :
    e.find path ≠ .blocked := fun blocked => by
  obtain ⟨front, name, rest, t, rfl, file⟩ := exists_file_of_blocked blocked
  exact clear front (List.prefix_append _ _) (by simp) t (standing_of_find file)

/-- An edit is made where no folder stands. -/
theorem Edit.standing_ne_folder {now : Found} (edit : Edit e path now e') :
    e.standing path ≠ some .folder := by
  induction edit with
  | @write entries name text free =>
    intro stands
    cases stood : Table.get? entries name with
    | none =>
      rw [standing, Entry.find, stood] at stands
      cases stands
    | some c =>
      rw [standing_child stood, standing_of_find (find_nil c)] at stands
      cases c with
      | file t => cases stands
      | folder es => exact free es stood
  | @remove entries name text stood =>
    intro stands
    rw [standing_child stood, standing_of_find (find_nil _)] at stands
    cases stands
  | deeper stood inside ih =>
    rw [standing_child stood]
    exact ih

/-- An edit is seen at its own path alone: what it is made in was a folder and stays one, and below
the path there is nothing, before and afterwards. -/
theorem Edit.standing_of_ne {now : Found} (edit : Edit e path now e') (ne : q ≠ path) :
    e'.standing q = e.standing q := by
  induction edit generalizing q with
  | @write entries name text free =>
    cases q with
    | nil => rfl
    | cons n q =>
      by_cases same : n = name
      · subst same
        cases q with
        | nil => exact absurd rfl ne
        | cons m q =>
          rw [standing_child (Table.get?_insert_self _ _ _)]
          cases stood : Table.get? entries n with
          | none => simp only [standing, Entry.find, stood]
          | some c =>
            rw [standing_child stood]
            cases c with
            | file t => rfl
            | folder es => exact absurd stood (free es)
      · simp only [standing, Entry.find, Table.get?_insert_of_ne same]
  | @remove entries name text stood =>
    cases q with
    | nil => rfl
    | cons n q =>
      by_cases same : n = name
      · subst same
        cases q with
        | nil => exact absurd rfl ne
        | cons m q =>
          rw [standing_child stood]
          simp only [standing, Entry.find, Table.get?_erase_self]
      · simp only [standing, Entry.find, Table.get?_erase_of_ne same]
  | @deeper entries name c c' path now stood inside ih =>
    cases q with
    | nil => rfl
    | cons n q =>
      by_cases same : n = name
      · subst same
        rw [standing_child stood, standing_child (Table.get?_insert_self _ _ _)]
        exact ih fun below => ne (by rw [below])
      · simp only [standing, Entry.find, Table.get?_insert_of_ne same]

/-- Only a file is removed. -/
theorem Edit.file_of_gone (edit : Edit e path .missing e') :
    ∃ text, e.find path = .here (.file text) := by
  generalize gone : Found.missing = now at edit
  induction edit with
  | write text free => cases gone
  | @remove entries name text stood => exact ⟨text, by simp only [Entry.find, stood]⟩
  | deeper stood inside ih => simpa only [Entry.find, stood] using ih gone

/-- No file can be written only where a folder has its name, so that nothing was made for it. -/
theorem eq_of_not_written {dirs : Path} {file : String} {text : Option String}
    (made : e.makeFolders dirs = some e') (failed : e'.writeFile text (dirs ++ [file]) = none) :
    e' = e := by
  have taken : ∃ es, e'.find (dirs ++ [file]) = .here (.folder es) := by
    by_contra free
    obtain ⟨written, done⟩ := exists_writeFile text (find_makeFolders made)
      fun es there => free ⟨es, there⟩
    rw [done] at failed
    cases failed
  obtain ⟨es, there⟩ := taken
  have before := find_makeFolders_of_not_prefix made (snoc_not_front dirs file)
  rw [before, find_append] at there
  cases above : e.find dirs with
  | missing => rw [above] at there; cases there
  | blocked => rw [above] at there; cases there
  | here c =>
    cases c with
    | file t => rw [above] at there; cases there
    | folder entries => exact Option.some.inj (made.symm.trans (makeFolders_of_folder above))

end Entry

/-! ### Changes -/

/-- A source is saved at a path: its file has it, in place of a file or of nothing; the folders on
the way are there, where a folder or nothing was before; and all else is as it was. -/
structure SavedAt (d d' : Directory) (path : Path) (source : String) : Prop where
  place : d'.place = d.place
  root : d'.root = d.root
  limit : d'.limit = d.limit
  noFolder : d.tree.standing path ≠ some .folder
  file : d'.tree.standing path = some (.file (some source))
  parents : ∀ q, q <+: path → q ≠ path → d'.tree.standing q = some .folder ∧
    (d.tree.standing q = some .folder ∨ d.tree.standing q = none)
  elsewhere : ∀ q, ¬ q <+: path → d'.tree.standing q = d.tree.standing q

/-- A file is deleted at a path: it is gone, and all else is as it was. -/
structure DeletedAt (d d' : Directory) (path : Path) : Prop where
  place : d'.place = d.place
  root : d'.root = d.root
  limit : d'.limit = d.limit
  stood : ∃ text, d.tree.standing path = some (.file text)
  gone : d'.tree.standing path = none
  elsewhere : ∀ q, q ≠ path → d'.tree.standing q = d.tree.standing q

/-- Folders are left on the way to a place with a name that is too long: those in front of that name
are there, where a folder or nothing was before, and all else is as it was. -/
structure LeftAt (d d' : Directory) (path : Path) : Prop where
  place : d'.place = d.place
  root : d'.root = d.root
  limit : d'.limit = d.limit
  tooLong : ¬ d.Fits path
  folders : ∀ q, q <+: path → d.Fits q → d'.tree.standing q = some .folder ∧
    (d.tree.standing q = some .folder ∨ d.tree.standing q = none)
  elsewhere : ∀ q, ¬ (q <+: path ∧ d.Fits q) → d'.tree.standing q = d.tree.standing q

/-- What a change needs. All names on the path are to be short enough. A source is to be sound; no
file may stand in place of a folder on the way, and no folder in place of the file. What is deleted
is to be a file. -/
def Change.PossibleAt (d : Directory) (path : Path) : Change → Prop
  | .save _ p => d.Fits path ∧ (∃ prompt, checkSource p.source = .ok prompt) ∧
      (∀ q, q <+: path → q ≠ path → ∀ text, d.tree.standing q ≠ some (.file text)) ∧
      d.tree.standing path ≠ some .folder
  | .delete _ _ _ => d.Fits path ∧ ∃ text, d.tree.standing path = some (.file text)

/-- What a change does that succeeds. -/
def Change.DoneAt (d d' : Directory) (path : Path) : Change → Prop
  | .save _ p => SavedAt d d' path p.source
  | .delete _ _ _ => DeletedAt d d' path

/-- What a change may leave that fails: folders, if it is a save. -/
def Change.LeavesAt (d d' : Directory) (path : Path) : Change → Prop
  | .save _ _ => LeftAt d d' path
  | .delete _ _ _ => False

namespace Directory

variable {d : Directory}

/-- A file that is written into folders made for it is saved at its path. -/
theorem savedAt_written {dirs : Path} {file source : String} {tree tree' : Entry}
    (made : d.tree.makeFolders dirs = some tree)
    (written : tree.writeFile (some source) (dirs ++ [file]) = some tree') :
    SavedAt d { d with tree := tree' } (dirs ++ [file]) source := by
  have edit := Entry.edit_writeFile written
  have same := Entry.find_makeFolders_of_not_prefix made (Entry.snoc_not_front dirs file)
  refine ⟨rfl, rfl, rfl, ?_, Entry.standing_of_find edit.find, fun q front ne => ?_,
    fun q off => ?_⟩
  · rw [Entry.standing, ← same]
    exact edit.standing_ne_folder
  · have front : q <+: dirs := by
      rcases List.prefix_concat_iff.mp front with whole | front
      · exact absurd whole ne
      · exact front
    obtain ⟨es, there⟩ := Entry.find_makeFolders made
    exact ⟨(edit.standing_of_ne ne).trans (Entry.standing_of_front there front),
      Entry.standing_of_free (Entry.free_of_makeFolders made) front⟩
  · have off' : ¬ q <+: dirs := fun front => off (front.trans (List.prefix_append _ _))
    calc tree'.standing q = tree.standing q :=
          edit.standing_of_ne fun same => off (same ▸ List.prefix_rfl)
      _ = d.tree.standing q := by
          rw [Entry.standing, Entry.standing, Entry.find_makeFolders_of_not_prefix made off']

/-- Folders that are made as far as names are short enough are left on the way. -/
theorem leftAt_made {path : Path} {tree : Entry} (long : ¬ d.Fits path)
    (made : d.tree.makeFolders (d.reach path) = some tree) : LeftAt d { d with tree } path where
  place := rfl
  root := rfl
  limit := rfl
  tooLong := long
  folders q front fits := by
    have reached := prefix_reach_iff.mpr ⟨front, fits⟩
    obtain ⟨es, there⟩ := Entry.find_makeFolders made
    exact ⟨Entry.standing_of_front there reached,
      Entry.standing_of_free (Entry.free_of_makeFolders made) reached⟩
  elsewhere q off := by
    have off' : ¬ q <+: d.reach path := fun reached => off (prefix_reach_iff.mp reached)
    rw [Entry.standing, Entry.standing, Entry.find_makeFolders_of_not_prefix made off']

/-- A source is not written, and nothing is changed but for folders that are left on the way to a
name that is too long, or it is saved at the path. -/
theorem write_cases (d : Directory) (dirs : Path) (file source : String) :
    (∃ err d', d.write (dirs ++ [file]) source = (.error err, d') ∧
        (d' = d ∨ LeftAt d d' (dirs ++ [file]))) ∨
      ∃ d', d.write (dirs ++ [file]) source = (.ok (), d') ∧
        SavedAt d d' (dirs ++ [file]) source := by
  by_cases fits : d.Fits (dirs ++ [file])
  · rw [write_of_fits fits, List.dropLast_concat]
    cases checkSource source with
    | error err => exact .inl ⟨err, d, rfl, .inl rfl⟩
    | ok prompt =>
      cases made : d.tree.makeFolders dirs with
      | none => exact .inl ⟨_, d, rfl, .inl rfl⟩
      | some tree =>
        dsimp only
        cases written : tree.writeFile (some source) (dirs ++ [file]) with
        | none =>
          exact .inl ⟨_, d, by rw [Entry.eq_of_not_written made written], .inl rfl⟩
        | some tree' => exact .inr ⟨_, rfl, savedAt_written made written⟩
  · obtain ⟨err, outcome⟩ := write_of_not_fits fits source
    refine .inl ⟨err, _, outcome, ?_⟩
    split
    · next made => exact .inr (leftAt_made fits made)
    · exact .inl rfl

/-- A file is not removed and nothing is changed, or it is deleted at the path. -/
theorem remove_cases (d : Directory) (path : Path) (name : String) :
    (∃ err, d.remove path name = (.error err, d)) ∨
      ∃ d', d.remove path name = (.ok (), d') ∧ DeletedAt d d' path := by
  rw [remove]
  cases here : d.find path with
  | missing => exact .inl ⟨_, rfl⟩
  | blocked => exact .inl ⟨_, rfl⟩
  | here c =>
    dsimp only
    cases removed : d.tree.removeFile path with
    | none => exact .inl ⟨_, rfl⟩
    | some tree =>
      have edit := Entry.edit_removeFile removed
      obtain ⟨text, stood⟩ := edit.file_of_gone
      exact .inr ⟨_, rfl, rfl, rfl, rfl, ⟨text, Entry.standing_of_find stood⟩,
        by simp only [Entry.standing, edit.find], fun q ne => edit.standing_of_ne ne⟩

/-- A change at the path of its file fails, or does what it is for. -/
theorem change_outcome {c : Change} {path : Path} (file : c.key.file = .ok path) :
    (∃ err d', d.change c = (.error err, d') ∧ (d' = d ∨ c.LeavesAt d d' (d.root ++ path))) ∨
      ∃ d', d.change c = (.ok (), d') ∧ c.DoneAt d d' (d.root ++ path) := by
  obtain ⟨-, -, made⟩ := fileOf_eq_ok_iff.mp file
  cases c with
  | save kind p =>
    rw [change_save file, made, ← List.append_assoc]
    exact write_cases d _ _ p.source
  | delete kind name variant =>
    rw [change_delete file]
    refine (remove_cases d _ name).imp_left ?_
    rintro ⟨err, failed⟩
    exact ⟨err, d, failed, .inl rfl⟩

/-- A change at the path of its file succeeds if and only if the path fits and the tree has place
for it, or the file that is to be deleted. -/
theorem succeeds_at_iff {c : Change} {path : Path} (file : c.key.file = .ok path) :
    (d.change c).1 = .ok () ↔ c.PossibleAt d (d.root ++ path) := by
  have outcome := change_outcome (d := d) file
  have plain := slash_notMem_of_fileOf file
  obtain ⟨-, -, made⟩ := fileOf_eq_ok_iff.mp file
  constructor
  · intro succeeded
    rcases outcome with ⟨err, d', failed, -⟩ | ⟨d', -, done⟩
    · rw [failed] at succeeded
      cases succeeded
    cases c with
    | save kind p =>
      rw [change_save file] at succeeded
      obtain ⟨sound, fits, -, -⟩ := found_of_write succeeded
      refine ⟨fits, sound, fun q front ne text stands => ?_, done.noFolder⟩
      rcases (done.parents q front ne).2 with folder | nothing
      · rw [folder] at stands
        cases stands
      · rw [nothing] at stands
        cases stands
    | delete kind name variant =>
      rw [change_delete file] at succeeded
      exact ⟨fits_of_remove succeeded, done.stood⟩
  · intro possible
    cases c with
    | save kind p =>
      obtain ⟨fits, ⟨prompt, sound⟩, clear, noFolder⟩ := possible
      have noFolder' : ∀ es, d.tree.find (d.root ++ path) ≠ .here (.folder es) :=
        fun es there => noFolder (Entry.standing_of_find there)
      rw [change_save file]
      subst made
      obtain ⟨tree, written, -, -⟩ :=
        exists_write plain fits sound (Entry.find_ne_blocked clear) noFolder'
      rw [written]
    | delete kind name variant =>
      obtain ⟨fits, text, stands⟩ := possible
      rw [change_delete file]
      subst made
      obtain ⟨tree, removed, -, -⟩ :=
        exists_remove plain fits (Entry.find_of_standing_file stands) name
      rw [removed]

theorem succeeds_iff (d : Directory) (c : Change) : (d.change c).1 = .ok () ↔
    ∃ path, c.key.file = .ok path ∧ c.PossibleAt d (d.root ++ path) := by
  constructor
  · intro succeeded
    cases file : c.key.file with
    | error err =>
      rw [change_of_badName file] at succeeded
      cases succeeded
    | ok path => exact ⟨path, rfl, (succeeds_at_iff file).mp succeeded⟩
  · rintro ⟨path, file, possible⟩
    exact (succeeds_at_iff file).mpr possible

/-- Nothing is left on a path that fits. -/
theorem not_leavesAt_of_fits {d' : Directory} {path : Path} (fits : d.Fits path) (c : Change) :
    ¬ c.LeavesAt d d' path := by
  intro left
  cases c with
  | save kind p => exact left.tooLong fits
  | delete kind name variant => exact left

/-- A change that is answered with an error changes nothing, whatever stands in the tree, if the
path of its file fits; if it does not, a save may leave folders in front of the name that is too
long, and nothing else. One that succeeds does what it is for at the path of its file, and nothing
else; it does so if and only if its name is accepted, its path fits and the tree before has place
for it. -/
theorem change_all_or_nothing (d : Directory) (c : Change) :
    (d.TakesFile c.key.kind c.key.name c.key.variant →
        ∀ err, (d.change c).1 = .error err → (d.change c).2 = d) ∧
      (∀ err, (d.change c).1 = .error err → (d.change c).2 = d ∨
        ∃ path, c.key.file = .ok path ∧ c.LeavesAt d (d.change c).2 (d.root ++ path)) ∧
      ((d.change c).1 = .ok () → ∃ path, c.key.file = .ok path ∧
        c.DoneAt d (d.change c).2 (d.root ++ path)) ∧
      ((d.change c).1 = .ok () ↔ ∃ path, c.key.file = .ok path ∧
        c.PossibleAt d (d.root ++ path)) := by
  rw [← and_assoc, ← and_assoc]
  refine ⟨?_, succeeds_iff d c⟩
  cases file : c.key.file with
  | error err =>
    rw [change_of_badName file]
    exact ⟨⟨fun _ _ _ => rfl, fun _ _ => .inl rfl⟩, nofun⟩
  | ok path =>
    rcases change_outcome (d := d) file with ⟨err, d', failed, left⟩ | ⟨d', succeeded, done⟩
    · rw [failed]
      refine ⟨⟨fun takes _ _ => ?_, fun _ _ => left.imp_right fun left => ⟨path, rfl, left⟩⟩, nofun⟩
      exact left.resolve_right (not_leavesAt_of_fits (takes path file) c)
    · rw [succeeded]
      exact ⟨⟨nofun, nofun⟩, fun _ => ⟨path, rfl, done⟩⟩

/-- A store with a file where a folder is to be made, and a folder with the name of a prompt. -/
def cluttered : Directory where
  place := "store"
  tree := .folder [("team", .file (some "x")), ("greet.prompt", .folder [])]

/-- Two changes that fail there at different steps, and one that succeeds in two new folders. -/
theorem change_all_or_nothing_cluttered :
    cluttered.TakesFile .whole "team/hi" none ∧ cluttered.TakesFile .whole "greet" none ∧
    (cluttered.change (.save .whole ⟨⟨"team/hi", none, none⟩, "Hi"⟩) =
      (.error (.fault (.noDirectory "store/team")), cluttered)) ∧
    (cluttered.change (.save .whole ⟨⟨"greet", none, none⟩, "Hi"⟩) =
      (.error (.fault (.noWrite "store/greet.prompt")), cluttered)) ∧
    (cluttered.change (.save .part ⟨⟨"mail/new/sig", none, none⟩, "Bye"⟩)).1 = .ok () ∧
    SavedAt cluttered (cluttered.change (.save .part ⟨⟨"mail/new/sig", none, none⟩, "Bye"⟩)).2
      ["mail", "new", "_sig.prompt"] "Bye" := by
  have takes : cluttered.TakesFile .whole "team/hi" none := by
    rintro path ⟨⟩
    decide
  have takes' : cluttered.TakesFile .whole "greet" none := by
    rintro path ⟨⟩
    decide
  have blocked : (cluttered.change (.save .whole ⟨⟨"team/hi", none, none⟩, "Hi"⟩)).1 =
      .error (.fault (.noDirectory "store/team")) := by rfl
  have taken : (cluttered.change (.save .whole ⟨⟨"greet", none, none⟩, "Hi"⟩)).1 =
      .error (.fault (.noWrite "store/greet.prompt")) := by rfl
  have fine : (cluttered.change (.save .part ⟨⟨"mail/new/sig", none, none⟩, "Bye"⟩)).1 =
      .ok () := by rfl
  refine ⟨takes, takes', Prod.ext blocked ((change_all_or_nothing _ _).1 takes _ blocked),
    Prod.ext taken ((change_all_or_nothing _ _).1 takes' _ taken), fine, ?_⟩
  obtain ⟨path, file, done⟩ := (change_all_or_nothing _ _).2.2.1 fine
  cases file
  exact done

/-- A name in a folder, too long for a file. -/
def longName : String := "/".intercalate (["newdir"] ++ [String.ofList (List.replicate 300 'a')])

theorem fileOf_longName : fileOf .whole longName none =
    .ok ["newdir", fileName .whole (List.replicate 300 'a') none] := by
  have long : Name.isSegment (List.replicate 300 'a') = true := by
    rw [Name.isSegment_iff]
    exact ⟨nofun, fun c mem => (List.eq_of_mem_replicate mem) ▸ by decide⟩
  have plain : '/' ∉ List.replicate 300 'a' := Name.slash_notMem_of_isSegment long
  have free : ∀ folder ∈ ["newdir"], '/' ∉ folder.toList := by decide
  obtain ⟨folders, base⟩ := foldersOf_baseOf_intercalate free plain
  refine fileOf_eq_ok_iff.mpr ⟨?_, rfl, by rw [longName, folders, base]; rfl⟩
  rw [Name.checkName_eq_ok_iff, segments_eq, longName, folders, base]
  intro s mem
  simp only [List.map_cons, List.map_nil, List.cons_append, List.nil_append, List.mem_cons,
    List.not_mem_nil, or_false] at mem
  rcases mem with rfl | rfl
  · decide
  · exact long

/-- A save fails when the folder for its file is made already. -/
theorem save_leaves_folder :
    let d : Directory := { place := "store" }
    let c : Change := .save .whole ⟨⟨longName, none, none⟩, "Hi"⟩
    (∃ err, (d.change c).1 = .error err) ∧ d.tree.standing ["newdir"] = none ∧
      (d.change c).2.tree.standing ["newdir"] = some .folder := by
  intro d c
  have long : ¬ d.Fits ["newdir", fileName .whole (List.replicate 300 'a') none] := by
    decide +kernel
  have reached :
      d.reach ["newdir", fileName .whole (List.replicate 300 'a') none] = ["newdir"] := by
    decide +kernel
  have writes : d.change c =
      d.write ["newdir", fileName .whole (List.replicate 300 'a') none] "Hi" :=
    change_save fileOf_longName
  obtain ⟨err, outcome⟩ := write_of_not_fits long "Hi"
  rw [reached] at outcome
  rw [writes, outcome]
  exact ⟨⟨err, rfl⟩, rfl, rfl⟩

end Directory

end Promptry.Store
