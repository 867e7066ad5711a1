import Promptry.Proofs.Store.Changes

/-!
Prompts and partials beside each other. A change of one kind leaves the other kind alone, except
that a prompt whose name is a partial's with the mark is kept in the partial's file. Main statement:
`change_keeps_other_kind`.
-/

namespace Promptry.Store.Directory

/-- A name is loaded as before: what is found is the same, and the answer as a whole if the path of
the name fits, as every path does in a store without a limit. A name that is too long is never
found: it is an error once the folder for it is there, and nothing before that. -/
structure LoadsAlike (d d' : Directory) (kind : Kind) (name : String) (variant : Option String) :
    Prop where
  found_iff : ∀ p,
    d'.load kind name variant = .ok (some p) ↔ d.load kind name variant = .ok (some p)
  same : d.TakesFile kind name variant → d'.load kind name variant = d.load kind name variant

theorem loadsAlike_of_apart {d : Directory} (sound : d.Sound) {c : Change} {kind : Kind}
    {name : String} {variant : Option String}
    (apart : ∀ path, c.key.file = .ok path → fileOf kind name variant ≠ .ok path) :
    LoadsAlike d (d.change c).2 kind name variant where
  found_iff := load_eq_some_iff_of_apart sound.fits_root apart
  same takes := load_of_apart sound.fits_root takes apart

/-- Changing a prompt leaves every partial alone that does not share its file, and the listing of
partials unless the prompt has the mark; changing a partial leaves every prompt alone that does not
share its file, and the listing of prompts. A prompt shares the file of a partial if and only if it
has the partial's name with the mark, and its variant. -/
theorem change_keeps_other_kind {d : Directory} (sound : d.Sound) (c : Change) :
    (c.key.kind = .whole →
      (∀ name variant, ¬ SharesFile c.key.name c.key.variant name variant →
        LoadsAlike d (d.change c).2 .part name variant) ∧
      (Unmarked .whole c.key.name → ∀ o, (d.change c).2.list .part o = d.list .part o)) ∧
    (c.key.kind = .part →
      (∀ name variant, ¬ SharesFile name variant c.key.name c.key.variant →
        LoadsAlike d (d.change c).2 .whole name variant) ∧
      ∀ o, (d.change c).2.list .whole o = d.list .whole o) ∧
    ∀ prompt variant part variant', SharesFile prompt variant part variant' ↔
      (∃ path, fileOf .part part variant' = .ok path) ∧ prompt = marked part ∧
        variant = variant' := by
  refine ⟨fun whole => ⟨?_, ?_⟩, fun part => ⟨?_, ?_⟩, fun _ _ _ _ => sharesFile_iff⟩
  · intro name variant apart
    refine loadsAlike_of_apart sound fun path file there => apart ⟨path, ?_, there⟩
    rw [← whole]
    exact file
  · intro unmarked
    refine list_of_apart sound fun name variant path _ file there => ?_
    rw [Key.file, whole] at file
    exact unmarked.not_sharesFile ⟨path, file, there⟩
  · intro name variant apart
    refine loadsAlike_of_apart sound fun path file there => apart ⟨path, there, ?_⟩
    rw [← part]
    exact file
  · refine list_of_apart sound fun name variant path unmarked file there => ?_
    rw [Key.file, part] at file
    exact unmarked.not_sharesFile ⟨path, there, file⟩

/-- The store `mixed` holds a prompt and a partial of the same name; removing either leaves the
other alone. -/
theorem change_keeps_other_kind_mixed :
    mixed.Sound ∧
      (Unmarked .whole "alpha" ∧ ∀ o,
        (mixed.change (.delete .whole "alpha" none)).2.list .part o = mixed.list .part o) ∧
      (¬ SharesFile "alpha" none "alpha" none ∧
        (mixed.change (.delete .part "alpha" none)).2.load .whole "alpha" none =
          mixed.load .whole "alpha" none) := by
  have unmarked : Unmarked .whole "alpha" := by decide
  have apart : ¬ SharesFile "alpha" none "alpha" none := unmarked.not_sharesFile
  refine ⟨mixed_sound, ⟨unmarked, ?_⟩, apart, ?_⟩
  · exact ((change_keeps_other_kind mixed_sound (.delete .whole "alpha" none)).1 rfl).2 unmarked
  · refine (((change_keeps_other_kind mixed_sound (.delete .part "alpha" none)).2.1 rfl).1
      "alpha" none apart).same ?_
    rintro path ⟨⟩
    decide

/-- A store with a partial in it and nothing else. -/
def onePartial : Directory where
  place := "store"
  tree := .folder [("_footer.prompt", .file (some "bye"))]

/-- Deleting the prompt `_footer` deletes the partial `footer`. -/
theorem deletes_other_kind :
    onePartial.Sound ∧
      onePartial.load .part "footer" none = .ok (some ⟨⟨"footer", none, none⟩, "bye"⟩) ∧
      onePartial.list .part {} = .ok ⟨[⟨"footer", none, none⟩], none⟩ ∧
      (onePartial.change (.delete .whole "_footer" none)).1 = .ok () ∧
      (onePartial.change (.delete .whole "_footer" none)).2.load .part "footer" none = .ok none ∧
      (onePartial.change (.delete .whole "_footer" none)).2.list .part {} = .ok ⟨[], none⟩ := by
  refine ⟨⟨?_, by simp [onePartial]⟩, rfl, list_of_listing ?_, rfl, rfl, list_of_listing ?_⟩
  · simp only [onePartial, Entry.Sound, Entry.SoundIn, Table.keys]
    decide
  · refine (listing_eq_ok_iff (by decide)).mpr (.inr ⟨_, rfl, ?_⟩)
    rw [List.mergeSort_of_pairwise] <;> decide
  · refine (listing_eq_ok_iff (by decide)).mpr (.inr ⟨[], rfl, ?_⟩)
    rw [List.mergeSort_of_pairwise] <;> decide

end Promptry.Store.Directory
