import Promptry.Proofs.Store.Listing

/-!
What a store lists can be loaded: the name and the variant of a reference lead back to the one file
that it was listed for. Only a file whose bytes are no text is listed and cannot be read. Main
statements: `load_of_fileOf` and `list_leads_back`.
-/

namespace Promptry.Store.Directory

variable {d : Directory} {kind : Kind} {name : String} {variant : Option String} {path : Path}

/-- What loading answers for what is found at the path of a reference. -/
def answerOf (d : Directory) (name : String) (variant : Option String) (path : Path) :
    Found → Except PromptError (Option StoredPrompt)
  | .here (.file (some source)) => .ok (some ⟨⟨name, variant, none⟩, source⟩)
  | .missing => .ok none
  | _ => .error (.fault (.noRead (d.pathText (d.root ++ path))))

/-- Loading looks at the path of the name and nowhere else. -/
theorem load_of_fileOf (kept : fileOf kind name variant = .ok path) :
    d.load kind name variant = d.answerOf name variant path (d.find (d.root ++ path)) := by
  simp only [load, address, locate_of_fileOf kept, bind, Except.bind, pure, Except.pure]
  cases here : d.find (d.root ++ path) with
  | missing => rfl
  | blocked => rfl
  | here e =>
    cases e with
    | folder entries => rfl
    | file t => cases t <;> rfl

theorem load_of_badName {err : Name.NameError} (refused : fileOf kind name variant = .error err) :
    d.load kind name variant = .error (.badName err) := by
  simp only [load, address, locate_of_refused refused, bind, Except.bind]

/-- A page is a part of the listing. -/
theorem sublist_of_list {o : ListOptions} {page : Page} (answer : d.list kind o = .ok page) :
    ∃ l, d.listing kind = .ok l ∧ page.items.Sublist l := by
  have part (l : List Reference) (start : Nat) : (paginate l start o.limit).items.Sublist l :=
    (List.take_sublist _ _).trans (List.drop_sublist _ _)
  rw [list] at answer
  cases listed : d.listing kind with
  | error err => rw [listed] at answer; cases answer
  | ok l =>
    refine ⟨l, rfl, ?_⟩
    rw [listed] at answer
    simp only [bind, Except.bind, pure, Except.pure] at answer
    split at answer
    · cases answer
      exact part l 0
    · split at answer
      · next start _ =>
        cases answer
        exact part l start
      · cases answer

/-- Without options, the listing is answered as a whole. -/
theorem list_of_listing {l : List Reference} (listed : d.listing kind = .ok l) :
    d.list kind {} = .ok ⟨l, none⟩ := by
  simp only [list, listed, bind, Except.bind, pure, Except.pure, paginate_whole]

/-- A file at a path that is listed as a reference. -/
def ListsFile (d : Directory) (kind : Kind) (r : Reference) (path : Path) : Prop :=
  (∃ text, d.FileAt path text) ∧ listed [] path = some (kind, r)

/-- Every reference of a page leads back to the file that it was listed for, and to no other. The
file's text is loaded under the reference, or the file is said to be unreadable if its bytes are no
text. Pages are in strict order. -/
theorem list_leads_back (sound : d.Sound) {o : ListOptions} {page : Page}
    (answer : d.list kind o = .ok page) :
    page.items.Pairwise Reference.Before ∧
      ∀ r ∈ page.items, ∃ path text, d.FileAt path text ∧
        (∀ other, d.ListsFile kind r other ↔ other = path) ∧
        d.load kind r.name r.variant = match text with
          | some source => .ok (some ⟨r, source⟩)
          | none => .error (.fault (.noRead (d.pathText (d.root ++ path)))) := by
  obtain ⟨l, listed, part⟩ := sublist_of_list answer
  refine ⟨(pairwise_listing sound listed).sublist part, fun r mem => ?_⟩
  obtain ⟨path, text, file, seen⟩ := (mem_listing_iff_listed sound listed).mp (part.subset mem)
  obtain ⟨kept, -, version⟩ := fileOf_of_listed (sound.slash_notMem file) seen
  refine ⟨path, text, file, fun other => ⟨?_, ?_⟩, ?_⟩
  · rintro ⟨⟨_, file'⟩, seen'⟩
    exact listed_injective sound file' file seen' seen
  · rintro rfl
    exact ⟨⟨text, file⟩, seen⟩
  · have here : d.tree.find (d.root ++ path) = .here (.file text) := file
    rw [load_of_fileOf kept, find_of_fits (sound.fits here), here]
    cases text with
    | none => rfl
    | some source => rw [answerOf, ← version]

/-- A store with variants, a folder, partials, a hidden folder and a file without a name. -/
def mixed : Directory where
  place := "store"
  tree := .folder [
    ("_alpha.prompt", .file (some "partial")),
    (".cache", .folder [("hidden.prompt", .file (some "hidden"))]),
    ("alpha.prompt", .file (some "Hi")),
    ("alpha.formal.prompt", .file (some "Good day")),
    ("bad name.prompt", .file (some "unnamed")),
    ("team", .folder [("welcome.prompt", .file none), ("_sig.prompt", .file (some "bye"))])]

theorem mixed_sound : mixed.Sound where
  tree := by
    simp only [mixed, Entry.Sound, Entry.SoundIn, Table.keys]
    decide
  root := by simp [mixed]

theorem listing_mixed : mixed.listing .whole = .ok
    [⟨"alpha", none, none⟩, ⟨"alpha", some "formal", none⟩, ⟨"team/welcome", none, none⟩] := by
  refine (listing_eq_ok_iff mixed_sound.fits_root).mpr (.inr ⟨_, rfl, ?_⟩)
  rw [List.mergeSort_of_pairwise] <;> decide

theorem list_leads_back_mixed :
    mixed.Sound ∧ mixed.list .whole {} = .ok ⟨[⟨"alpha", none, none⟩,
        ⟨"alpha", some "formal", none⟩, ⟨"team/welcome", none, none⟩], none⟩ ∧
      ∃ path text, mixed.FileAt path text ∧
        (∀ other, mixed.ListsFile .whole ⟨"alpha", some "formal", none⟩ other ↔ other = path) ∧
        mixed.load .whole "alpha" (some "formal") = match text with
          | some source => .ok (some ⟨⟨"alpha", some "formal", none⟩, source⟩)
          | none => .error (.fault (.noRead (mixed.pathText (mixed.root ++ path)))) :=
  ⟨mixed_sound, list_of_listing listing_mixed,
    (list_leads_back mixed_sound (list_of_listing listing_mixed)).2 ⟨"alpha", some "formal", none⟩
      (by simp)⟩

/-- A file is listed by its name alone, so that one whose bytes are no text is listed and cannot be
loaded. -/
theorem listed_not_loaded : mixed.Sound ∧ mixed.list .whole {} = .ok ⟨[⟨"alpha", none, none⟩,
      ⟨"alpha", some "formal", none⟩, ⟨"team/welcome", none, none⟩], none⟩ ∧
    mixed.load .whole "team/welcome" none =
      .error (.fault (.noRead "store/team/welcome.prompt")) :=
  ⟨mixed_sound, list_of_listing listing_mixed, rfl⟩

end Promptry.Store.Directory
