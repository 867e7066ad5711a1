import Mathlib.Logic.Function.Basic
import Promptry.Proofs.Store.Changes

/-!
A store as a map. The sources are under their kinds, names and variants; a change sets or unsets one
of them, or is refused. A store that started out empty stands for such a map after every run of
changes: it loads what the map has and lists its keys. Main statements: `Represents.change` and
`Represents.after`.
-/

namespace Promptry.Store

namespace Key

/-- A key that is not taken for one of another kind. -/
def Plain (key : Key) : Prop := Unmarked key.kind key.name

instance (key : Key) : Decidable key.Plain := inferInstanceAs (Decidable (Unmarked _ _))

/-- Plain keys have files of their own. -/
theorem file_injective {key other : Key} {path : Path} (plain : key.Plain) (plain' : other.Plain)
    (here : key.file = .ok path) (there : other.file = .ok path) : key = other := by
  obtain ⟨kind, name, variant⟩ := key
  obtain ⟨kind', name', variant'⟩ := other
  have same : kind = kind' := by
    cases kind <;> cases kind'
    · rfl
    · exact absurd ⟨path, here, there⟩ (Unmarked.not_sharesFile plain)
    · exact absurd ⟨path, there, here⟩ (Unmarked.not_sharesFile plain')
    · rfl
  subst same
  obtain ⟨rfl, rfl⟩ := fileOf_injective here there
  rfl

end Key

/-- Sources under keys. -/
abbrev Contents := Key → Option String

namespace Contents

/-- Nothing under any key. -/
def empty : Contents := fun _ => none

/-- A change of a map. What is saved is set if its name and its source are sound; what is deleted is
unset if it was there. -/
def change (m : Contents) (c : Change) : Except PromptError Unit × Contents :=
  match c.key.file, c with
  | .error err, _ => (.error (.badName err), m)
  | .ok _, .save _ p =>
    match checkSource p.source with
    | .error err => (.error err, m)
    | .ok _ => (.ok (), Function.update m c.key (some p.source))
  | .ok _, .delete _ name _ =>
    match m c.key with
    | none => (.error (.fault (.notFound name)), m)
    | some _ => (.ok (), Function.update m c.key none)

/-- The map behind a run of changes. -/
def after (m : Contents) (cs : List Change) : Contents := cs.foldl (fun m c => (m.change c).2) m

end Contents

/-- The store behind a run of changes. -/
def Directory.after (d : Directory) (cs : List Change) : Directory :=
  cs.foldl (fun d c => (d.change c).2) d

/-- What is found at the path of a key under which there is this. -/
def foundOf : Option String → Found
  | some source => .here (.file (some source))
  | none => .missing

/-- A store that stands for a map. -/
structure Represents (d : Directory) (m : Contents) : Prop where
  unlimited : d.limit = none
  sound : d.Sound
  scans : d.Scans
  /-- No folder has the name of a file. -/
  folders : ∀ path entries, d.tree.find (d.root ++ path) = .here (.folder entries) →
    ∀ name ∈ path, '.' ∉ name.toList
  /-- Every file is that of a key. -/
  files : ∀ path text, d.FileAt path text → ∃ key source, key.file = .ok path ∧
    m key = some source ∧ text = some source
  /-- Every key has its file. -/
  kept : ∀ key source, m key = some source →
    key.Plain ∧ (∃ prompt, checkSource source = .ok prompt) ∧
      ∃ path, key.file = .ok path ∧ d.FileAt path (some source)

variable {d d' : Directory} {m : Contents} {key : Key} {path : Path}

/-! ### Looking up -/

theorem Represents.fits (rep : Represents d m) (path : Path) : d.Fits path :=
  Directory.fits_of_unlimited rep.unlimited path

/-- At the path of a plain key there is what the map has under the key. -/
theorem Represents.find (rep : Represents d m) (plain : key.Plain) (file : key.file = .ok path) :
    d.tree.find (d.root ++ path) = foundOf (m key) := by
  cases here : m key with
  | some source =>
    obtain ⟨-, -, path', file', stands⟩ := rep.kept key source here
    rw [file] at file'
    cases file'
    exact stands
  | none =>
    rcases rep.scans with root | ⟨entries, root⟩
    · rw [Entry.find_append, root]
      rfl
    · cases found : d.tree.find (d.root ++ path) with
      | missing => rfl
      | here e =>
        cases e with
        | file text =>
          obtain ⟨other, source, there, set, -⟩ := rep.files path text found
          have same := Key.file_injective plain (rep.kept other source set).1 file there
          rw [same, set] at here
          cases here
        | folder inner =>
          -- the name of a file holds a dot, that of a folder none
          obtain ⟨-, -, made⟩ := fileOf_eq_ok_iff.mp file
          refine absurd (dot_mem_fileName key.kind (baseOf key.name) key.variant)
            (rep.folders path inner found _ ?_)
          rw [made]
          simp
      | blocked =>
        -- the file on the way is that of a key as well, and no path of a file leads through another
        rw [Entry.find_append, root] at found
        obtain ⟨front, n, rest, text, rfl, stands⟩ := Entry.exists_file_of_blocked found
        obtain ⟨other, source, there, -, -⟩ :=
          rep.files front text ((Directory.fileAt_iff root).mpr stands)
        have same := eq_of_front there file (List.prefix_append front (n :: rest))
        simp at same

/-- What the map has under a valid key is loaded. -/
theorem Represents.load (rep : Represents d m) (plain : key.Plain) (file : key.file = .ok path) :
    d.load key.kind key.name key.variant =
      .ok ((m key).map fun source => ⟨⟨key.name, key.variant, none⟩, source⟩) := by
  rw [Directory.load_of_fileOf file, Directory.find_of_fits (rep.fits _), rep.find plain file]
  cases m key <;> rfl

/-- The keys of a kind are listed. -/
theorem Represents.mem_listing (rep : Represents d m) {kind : Kind} {l : List Reference}
    (answer : d.listing kind = .ok l) (r : Reference) :
    r ∈ l ↔ r.version = none ∧ ∃ source, m ⟨kind, r.name, r.variant⟩ = some source := by
  rw [Directory.mem_listing_iff rep.sound answer]
  refine and_congr_right fun _ => ⟨?_, ?_⟩
  · rintro ⟨unmarked, path, file, text, stands⟩
    have found : d.tree.find (d.root ++ path) = foundOf (m ⟨kind, r.name, r.variant⟩) :=
      rep.find unmarked file
    cases set : m ⟨kind, r.name, r.variant⟩ with
    | some source => exact ⟨source, rfl⟩
    | none =>
      rw [set] at found
      exact absurd (found.symm.trans stands) nofun
  · rintro ⟨source, set⟩
    obtain ⟨unmarked, -, path, file, stands⟩ := rep.kept _ source set
    exact ⟨unmarked, path, file, _, stands⟩

/-! ### Changing -/

theorem foundOf_ne_blocked (now : Option String) : foundOf now ≠ .blocked := by
  cases now <;> exact nofun

theorem foundOf_ne_folder (now : Option String) (entries : List (String × Entry)) :
    foundOf now ≠ .here (.folder entries) := by
  cases now <;> exact nofun

/-- Where a key's file may stand, nothing is found below it. -/
theorem find_below_foundOf {e : Entry} {p rest : Path} {now : Option String}
    (found : e.find p = foundOf now) (below : rest ≠ []) (c : Entry) :
    e.find (p ++ rest) ≠ .here c := by
  rw [Entry.find_append, found]
  cases now with
  | none => exact nofun
  | some source =>
    cases rest with
    | nil => exact absurd rfl below
    | cons n rest => exact nofun

/-- What is found behind a change, at the path, on the way to it, or elsewhere as before. -/
theorem found_behind_change {now : Option String} (changed : Directory.ChangedAt d d' path)
    (found : d'.tree.find (d'.root ++ path) = foundOf now) {q : Path} {e : Entry}
    (here : d'.tree.find (d'.root ++ q) = .here e) :
    (q = path ∧ foundOf now = .here e) ∨ (q ≠ path ∧ q <+: path ∧ ∃ entries, e = .folder entries) ∨
      ¬ q <+: path ∧ d.tree.find (d.root ++ q) = .here e := by
  by_cases off : q <+: path
  · by_cases same : q = path
    · subst same
      exact .inl ⟨rfl, found.symm.trans here⟩
    · refine .inr (.inl ⟨same, off, ?_⟩)
      cases e with
      | folder entries => exact ⟨entries, rfl⟩
      | file text =>
        obtain ⟨rest, rfl⟩ := off
        cases rest with
        | nil => exact absurd (List.append_nil q).symm same
        | cons n rest =>
          rw [← List.append_assoc, Entry.find_append, here] at found
          exact absurd found.symm (foundOf_ne_blocked now)
  · refine .inr (.inr ⟨off, ?_⟩)
    by_cases on : path <+: q
    · obtain ⟨rest, rfl⟩ := on
      have below : rest ≠ [] := fun same => off (by simp [same])
      rw [← List.append_assoc] at here
      exact absurd here (find_below_foundOf found below _)
    · rw [← changed.elsewhere q off on, ← changed.root]
      exact here

/-- A store that changed at the path of a key stands for the map that changed at the key. -/
theorem Represents.update (rep : Represents d m) (plain : key.Plain) (file : key.file = .ok path)
    {now : Option String} (changed : Directory.ChangedAt d d' path)
    (found : d'.tree.find (d'.root ++ path) = foundOf now)
    (checked : ∀ source, now = some source → ∃ prompt, checkSource source = .ok prompt) :
    Represents d' (Function.update m key now) where
  unlimited := changed.limit.trans rep.unlimited
  sound := changed.sound rep.sound
  scans := changed.scans'
  folders q entries here := by
    rcases found_behind_change changed found here with ⟨-, same⟩ | ⟨ne, way, -⟩ | ⟨-, before⟩
    · exact absurd same (foundOf_ne_folder now entries)
    · obtain ⟨named, -, made⟩ := fileOf_eq_ok_iff.mp file
      rw [made, List.prefix_concat_iff, ← made] at way
      have inside := way.resolve_left ne
      exact fun n mem => Name.dot_notMem_of_isSegment
        (isSegment_of_mem_foldersOf named (inside.subset mem))
    · exact rep.folders q entries before
  files q text here := by
    rcases found_behind_change changed found here with ⟨rfl, same⟩ | ⟨-, -, _, same⟩ | ⟨off, before⟩
    · cases now with
      | none => cases same
      | some source =>
        cases same
        exact ⟨key, source, file, Function.update_self _ _ _, rfl⟩
    · cases same
    · obtain ⟨other, source, there, set, same⟩ := rep.files q text before
      have ne : other ≠ key := by
        rintro rfl
        exact off (Except.ok.inj (there.symm.trans file) ▸ List.prefix_rfl)
      exact ⟨other, source, there, by rw [Function.update_of_ne ne, set], same⟩
  kept other source set := by
    by_cases same : other = key
    · subst same
      rw [Function.update_self] at set
      refine ⟨plain, checked source set, path, file, ?_⟩
      rw [Directory.FileAt, found, set]
      rfl
    · rw [Function.update_of_ne same] at set
      obtain ⟨plain', sound, path', there, stands⟩ := rep.kept other source set
      have ne : path' ≠ path := fun equal =>
        same (Key.file_injective plain' plain there (equal ▸ file))
      refine ⟨plain', sound, path', there, ?_⟩
      rw [Directory.FileAt, changed.find_of_ne file there ne]
      exact stands

/-- A change of the store is the change of the map, with the same answer. -/
theorem Represents.change (rep : Represents d m) {c : Change} (plain : c.key.Plain) :
    (d.change c).1 = (m.change c).1 ∧ Represents (d.change c).2 (m.change c).2 := by
  cases file : c.key.file with
  | error err =>
    rw [Directory.change_of_badName file]
    simp only [Contents.change, file]
    exact ⟨trivial, rep⟩
  | ok path =>
    have slashless := slash_notMem_of_fileOf file
    have found := rep.find plain file
    obtain ⟨-, -, made⟩ := fileOf_eq_ok_iff.mp file
    cases c with
    | save kind p =>
      rw [Directory.change_save file]
      simp only [Contents.change, file]
      cases checked : checkSource p.source with
      | error err =>
        simp only [Directory.write, checked]
        exact ⟨trivial, rep⟩
      | ok prompt =>
        rw [made] at slashless found
        obtain ⟨tree, written, changed, stands⟩ := Directory.exists_write slashless
          (rep.fits _) checked
          (by rw [found]; exact foundOf_ne_blocked _)
          (fun es => by rw [found]; exact foundOf_ne_folder _ es)
        rw [← made] at written changed stands
        rw [written]
        refine ⟨rfl, rep.update plain file changed stands fun source same => ?_⟩
        cases same
        exact ⟨prompt, checked⟩
    | delete kind name variant =>
      rw [Directory.change_delete file]
      simp only [Contents.change, file]
      cases set : m (Change.delete kind name variant).key with
      | none =>
        rw [set] at found
        rw [← Directory.find_of_fits (rep.fits _)] at found
        rw [Directory.remove_of_missing found]
        exact ⟨rfl, rep⟩
      | some source =>
        rw [set, made] at found
        rw [made] at slashless
        obtain ⟨tree, removed, changed, gone⟩ := Directory.exists_remove slashless
          (rep.fits _) found name
        rw [← made] at removed changed gone
        rw [removed]
        refine ⟨rfl, rep.update plain file changed gone fun source same => ?_⟩
        cases same

/-! ### Runs -/

/-- A store without files stands for the empty map. -/
theorem represents_empty (unlimited : d.limit = none) (sound : d.Sound)
    (start : d.tree.find d.root = .missing ∨ d.tree.find d.root = .here (.folder [])) :
    Represents d .empty where
  unlimited := unlimited
  sound := sound
  scans := start.imp_right fun root => ⟨[], root⟩
  folders path entries here n mem := by
    rw [Entry.find_append] at here
    rcases start with root | root <;> rw [root] at here
    · cases here
    · cases path with
      | nil => cases mem
      | cons first rest => cases here
  files path text here := by
    rw [Directory.FileAt, Entry.find_append] at here
    rcases start with root | root <;> rw [root] at here
    · cases here
    · cases path <;> cases here
  kept _ _ set := nomatch set

/-- A run of changes to the store is one to the map. -/
theorem Represents.after (rep : Represents d m) {cs : List Change}
    (plain : ∀ c ∈ cs, c.key.Plain) : Represents (d.after cs) (m.after cs) := by
  induction cs generalizing d m with
  | nil => exact rep
  | cons c cs ih =>
    obtain ⟨first, rest⟩ := List.forall_mem_cons.mp plain
    exact ih (rep.change first).2 rest

/-- A store that starts out empty and takes names of any length is a map from kinds, names and
variants to sources, as long as no prompt has a name with the mark of partials. After every run of
changes it loads what the map has, under the reference asked for; it lists the keys of a kind, each
once and in order; all its sources are sound; and it answers the next change as the map does. -/
theorem after_is_map {d : Directory} (unlimited : d.limit = none) (sound : d.Sound)
    (start : d.tree.find d.root = .missing ∨ d.tree.find d.root = .here (.folder []))
    {cs : List Change} (plain : ∀ c ∈ cs, c.key.Plain) :
    let m := Contents.empty.after cs
    (∀ key : Key, key.Plain → (∃ path, key.file = .ok path) →
      (d.after cs).load key.kind key.name key.variant =
        .ok ((m key).map fun source => ⟨⟨key.name, key.variant, none⟩, source⟩)) ∧
    (∀ kind, ∃ l, (d.after cs).list kind {} = .ok ⟨l, none⟩ ∧ l.Pairwise Reference.Before ∧
      ∀ r, r ∈ l ↔ r.version = none ∧ ∃ source, m ⟨kind, r.name, r.variant⟩ = some source) ∧
    (∀ path text, (d.after cs).FileAt path text →
      ∃ source, text = some source ∧ ∃ prompt, checkSource source = .ok prompt) ∧
    ∀ c : Change, c.key.Plain → ((d.after cs).change c).1 = (m.change c).1 := by
  intro m
  have rep : Represents (d.after cs) m := (represents_empty unlimited sound start).after plain
  refine ⟨fun key plain ⟨path, file⟩ => rep.load plain file, fun kind => ?_, ?_,
    fun c plain => (rep.change plain).1⟩
  · obtain ⟨l, answer⟩ := rep.scans.listing (rep.fits _) kind
    exact ⟨l, Directory.list_of_listing answer, Directory.pairwise_listing rep.sound answer,
      rep.mem_listing answer⟩
  · intro path text stands
    obtain ⟨key, source, -, set, same⟩ := rep.files path text stands
    exact ⟨source, same, (rep.kept key source set).2.1⟩

/-- A store whose root is missing, for names of any length. -/
def unmade : Directory where
  place := "store"
  root := ["prompts"]
  tree := .folder []
  limit := none

/-- A partial saved, a prompt saved and deleted again, and between them a source and a name that are
refused. -/
def edits : List Change :=
  [.save .part ⟨⟨"mail/footer", none, none⟩, "Bye {{name}}"⟩,
   .save .whole ⟨⟨"greet", some "formal", none⟩, "Dear {{name}}"⟩,
   .save .whole ⟨⟨"greet", none, none⟩, "Hi \x7b\x7bname"⟩,
   .delete .whole "../greet" none,
   .delete .whole "greet" (some "formal")]

/-- Behind these changes the partial is loaded, and the prompt is not. -/
theorem after_is_map_edits :
    (unmade.limit = none ∧ unmade.Sound ∧ unmade.tree.find unmade.root = .missing ∧
      ∀ c ∈ edits, c.key.Plain) ∧
      (unmade.after edits).load .part "mail/footer" none =
        .ok (some ⟨⟨"mail/footer", none, none⟩, "Bye {{name}}"⟩) ∧
      (unmade.after edits).load .whole "greet" (some "formal") = .ok none ∧
      ∃ l, (unmade.after edits).list .part {} = .ok ⟨l, none⟩ ∧
        ⟨"mail/footer", none, none⟩ ∈ l := by
  have sound : unmade.Sound := by
    refine ⟨by simp [unmade, Entry.Sound, Entry.SoundIn, Table.keys], ?_⟩
    decide
  have plain : ∀ c ∈ edits, c.key.Plain := by decide
  have footer : Contents.empty.after edits ⟨.part, "mail/footer", none⟩ = some "Bye {{name}}" := by
    decide +kernel
  have greet : Contents.empty.after edits ⟨.whole, "greet", some "formal"⟩ = none := by
    decide +kernel
  obtain ⟨loads, lists, -, -⟩ := after_is_map rfl sound (.inl rfl) plain
  refine ⟨⟨rfl, sound, rfl, plain⟩, ?_, ?_, ?_⟩
  · rw [loads ⟨.part, "mail/footer", none⟩ (by decide) ⟨_, rfl⟩, footer]
    rfl
  · rw [loads ⟨.whole, "greet", some "formal"⟩ (by decide) ⟨_, rfl⟩, greet]
    rfl
  · obtain ⟨l, answer, -, inside⟩ := lists .part
    exact ⟨l, answer, (inside _).mpr ⟨rfl, _, footer⟩⟩

end Promptry.Store
