import Promptry.Proofs.Store.Loading

/-!
No operation leads out of a store. A name and a variant are accepted if and only if they are made of
segments; they are then kept below the root, one plain name deeper for each segment. All others are
refused before the tree is looked at. Main statements: `checkName_iff_written`,
`length_of_fileOf` and `address_confined`.
-/

namespace Promptry.Store

/-- Some characters, each a letter or a digit of any script, a hyphen or an underscore. -/
def IsSegment (cs : List Char) : Prop :=
  cs ≠ [] ∧ ∀ c ∈ cs, Text.isAlphanumeric c = true ∨ c = '-' ∨ c = '_'

/-- A name that is written as segments with slashes between, at least one. -/
def Written (name : String) (ss : List (List Char)) : Prop :=
  ss ≠ [] ∧ (∀ s ∈ ss, IsSegment s) ∧ name.toList = Name.join ss

/-- A variant that is none, or a segment. -/
def Varied (variant : Option String) : Prop := ∀ v, variant = some v → IsSegment v.toList

theorem isSegment_eq_true_iff {cs : List Char} : Name.isSegment cs = true ↔ IsSegment cs := by
  simp [Name.isSegment_iff, IsSegment, Name.isNameChar, or_assoc]

instance (cs : List Char) : Decidable (IsSegment cs) := decidable_of_iff _ isSegment_eq_true_iff

instance (name : String) (ss : List (List Char)) : Decidable (Written name ss) :=
  inferInstanceAs (Decidable (_ ∧ _))

/-- There is one way to write a name as segments, at its slashes. -/
theorem Written.segments {name : String} {ss : List (List Char)} (written : Written name ss) :
    Name.segments name.toList = ss := by
  obtain ⟨some, sound, text⟩ := written
  rw [text, Name.segments_join some fun s mem =>
    Name.slash_notMem_of_isSegment (isSegment_eq_true_iff.mpr (sound s mem))]

theorem checkName_iff_written {name : String} :
    Name.checkName name = .ok () ↔ ∃ ss, Written name ss := by
  rw [Name.checkName_eq_ok_iff]
  constructor
  · exact fun sound => ⟨Name.segments name.toList, Name.segments_ne_nil _,
      fun s mem => isSegment_eq_true_iff.mp (sound s mem), (Name.join_segments _).symm⟩
  · rintro ⟨ss, written⟩ s mem
    rw [written.segments] at mem
    exact isSegment_eq_true_iff.mpr (written.2.1 s mem)

theorem checkVariant?_iff_varied {variant : Option String} :
    checkVariant? variant = .ok () ↔ Varied variant := by
  cases variant with
  | none => exact iff_of_true rfl nofun
  | some v =>
    rw [checkVariant?, Name.checkVariant_eq_ok_iff, isSegment_eq_true_iff]
    exact ⟨fun segment _ same => Option.some.inj same ▸ segment, fun varied => varied v rfl⟩

/-- A file is kept as deep below the root as its name has segments. -/
theorem length_of_fileOf {kind : Kind} {name : String} {variant : Option String} {path : Path}
    (ok : fileOf kind name variant = .ok path) :
    path.length = (Name.segments name.toList).length := by
  obtain ⟨-, -, rfl⟩ := fileOf_eq_ok_iff.mp ok
  rw [segments_eq, List.length_append, List.length_append, List.length_map]
  rfl

/-- What is not written as it should be is refused. -/
theorem exists_refusal (kind : Kind) {name : String} {variant : Option String}
    (odd : ¬ ((∃ ss, Written name ss) ∧ Varied variant)) :
    ∃ err, fileOf kind name variant = .error err := by
  cases file : fileOf kind name variant with
  | error err => exact ⟨err, rfl⟩
  | ok path =>
    obtain ⟨named, varied⟩ := fileOf_ok file
    exact absurd ⟨checkName_iff_written.mp named, checkVariant?_iff_varied.mp varied⟩ odd

namespace Directory

/-- All operations on a name work at one path. -/
structure WorksAt (d : Directory) (kind : Kind) (name : String) (variant : Option String)
    (below : Path) : Prop where
  address : d.address kind name variant = .ok (d.root ++ below)
  load : d.load kind name variant = d.answerOf name variant below (d.find (d.root ++ below))
  save : ∀ version source,
    d.save kind ⟨⟨name, variant, version⟩, source⟩ = d.write (d.root ++ below) source
  delete : d.delete kind name variant = d.remove (d.root ++ below) name

/-- All operations on a name are refused, and change nothing. -/
structure Refuses (d : Directory) (kind : Kind) (name : String) (variant : Option String)
    (err : Name.NameError) : Prop where
  address : d.address kind name variant = .error (.badName err)
  load : d.load kind name variant = .error (.badName err)
  save : ∀ version source,
    d.save kind ⟨⟨name, variant, version⟩, source⟩ = (.error (.badName err), d)
  delete : d.delete kind name variant = (.error (.badName err), d)

variable {kind : Kind} {name : String} {variant : Option String}

theorem worksAt_of_fileOf {path : Path} (file : fileOf kind name variant = .ok path)
    (d : Directory) : WorksAt d kind name variant path := by
  have there : d.address kind name variant = .ok (d.root ++ path) := by
    simp only [address, locate_of_fileOf file]
  refine ⟨there, load_of_fileOf file, fun _ _ => ?_, ?_⟩
  · simp only [save, there]
  · simp only [delete, there]

theorem refuses_of_badName {err : Name.NameError} (refused : fileOf kind name variant = .error err)
    (d : Directory) : Refuses d kind name variant err where
  address := by simp only [address, locate_of_refused refused]
  load := load_of_badName refused
  save _ _ := save_of_badName refused
  delete := delete_of_badName refused

/-- A name that is written as segments, with a variant that is one if there is any, is kept below
the root of every store, as many names deeper as it has segments. Each of them is plain, so that no
one of them leads back, up or elsewhere. Under any other name or variant nothing is loaded, saved or
deleted in any store, whatever is in it, and all these operations tell the same fault of the
name. -/
theorem address_confined (kind : Kind) (name : String) (variant : Option String) :
    (∀ ss, Written name ss → Varied variant → ∃ below : Path, below.length = ss.length ∧
      (∀ n ∈ below, Plain n.toList) ∧ ∀ d : Directory, WorksAt d kind name variant below) ∧
    (¬ ((∃ ss, Written name ss) ∧ Varied variant) →
      ∃ err : Name.NameError, ∀ d : Directory, Refuses d kind name variant err) := by
  constructor
  · intro ss written varied
    have named := checkName_iff_written.mpr ⟨ss, written⟩
    have file : fileOf kind name variant =
        .ok (foldersOf name ++ [fileName kind (baseOf name) variant]) :=
      fileOf_eq_ok_iff.mpr ⟨named, checkVariant?_iff_varied.mpr varied, rfl⟩
    exact ⟨_, written.segments ▸ length_of_fileOf file, plain_of_fileOf file,
      worksAt_of_fileOf file⟩
  · intro odd
    obtain ⟨err, refused⟩ := exists_refusal kind odd
    exact ⟨err, refuses_of_badName refused⟩

/-- A partial in a folder, and a name that would lead out of the store. -/
theorem address_confined_welcome :
    Written "team/welcome" ["team".toList, "welcome".toList] ∧ Varied (some "formal") ∧
    (∃ below : Path, below.length = 2 ∧ (∀ n ∈ below, Plain n.toList) ∧
      ∀ d : Directory, WorksAt d .part "team/welcome" (some "formal") below) ∧
    ¬ ((∃ ss, Written "../secret" ss) ∧ Varied none) ∧
    ∃ err : Name.NameError, ∀ d : Directory, Refuses d .whole "../secret" none err := by
  have written : Written "team/welcome" ["team".toList, "welcome".toList] := by decide
  have varied : Varied (some "formal") := checkVariant?_iff_varied.mp (by decide)
  have odd : ¬ ((∃ ss, Written "../secret" ss) ∧ Varied none) := fun both =>
    absurd (checkName_iff_written.mpr both.1) (by decide)
  have kept := (address_confined .part "team/welcome" (some "formal")).1 _ written varied
  have refused := (address_confined .whole "../secret" none).2 odd
  exact ⟨written, varied, kept, odd, refused⟩

end Directory

end Promptry.Store
