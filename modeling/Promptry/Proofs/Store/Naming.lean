import Mathlib.Data.List.Nodup
import Mathlib.Data.List.TakeWhile
import Promptry.Proofs.Prompt.Segments
import Promptry.Store.Address

/-!
How names become files and how files are read back as names. The file that a name is kept in gives
back its kind, its name and its variant, unless a prompt's base starts with the mark of partials.
Main statements: `fileOf_eq_ok_iff`, `fileOf_of_referenceOf`, `referenceOf_of_fileOf` and
`sharesFile_iff`.
-/

namespace Promptry.Store

/-! ### Folders and bases -/

/-- The folders that a name tells. -/
def foldersOf (name : String) : Path :=
  (Name.segments name.toList).dropLast.map String.ofList

/-- The last segment of a name. -/
def baseOf (name : String) : List Char :=
  (Name.segments name.toList).getLast (Name.segments_ne_nil _)

/-- The base of a prompt's name does not start as the files of partials do. -/
def Unmarked (kind : Kind) (name : String) : Prop :=
  kind = .whole → (baseOf name).head? ≠ some '_'

instance (kind : Kind) (name : String) : Decidable (Unmarked kind name) :=
  inferInstanceAs (Decidable (kind = .whole → _))

theorem segments_eq (name : String) :
    Name.segments name.toList = (foldersOf name).map String.toList ++ [baseOf name] := by
  rw [foldersOf, List.map_map]
  have same : (String.toList ∘ String.ofList : List Char → List Char) = id := by
    funext cs
    exact String.toList_ofList
  rw [same, List.map_id, baseOf, List.dropLast_append_getLast]

theorem eq_of_foldersOf_of_baseOf {name other : String} (folders : foldersOf name = foldersOf other)
    (base : baseOf name = baseOf other) : name = other := by
  rw [← String.toList_inj, ← Name.join_segments name.toList, segments_eq, folders, base,
    ← segments_eq, Name.join_segments]

/-- The name of a base in folders is read back as these. -/
theorem foldersOf_baseOf_intercalate {folders : Path} {base : List Char}
    (plain : ∀ name ∈ folders, '/' ∉ name.toList) (last : '/' ∉ base) :
    let name := "/".intercalate (folders ++ [String.ofList base])
    foldersOf name = folders ∧ baseOf name = base := by
  have segments : Name.segments ("/".intercalate (folders ++ [String.ofList base])).toList =
      folders.map String.toList ++ [base] := by
    rw [Name.toList_intercalate_slash, List.map_append, List.map_singleton, String.toList_ofList,
      Name.segments_join (by simp)]
    intro s mem
    rcases List.mem_append.mp mem with mem | mem
    · obtain ⟨name, inside, rfl⟩ := List.mem_map.mp mem
      exact plain name inside
    · rw [List.mem_singleton.mp mem]
      exact last
  have both := (segments_eq _).symm.trans segments
  obtain ⟨front, back⟩ := List.append_inj' both rfl
  exact ⟨List.map_injective_iff.mpr (fun _ _ => String.toList_inj.mp) front,
    List.singleton_inj.mp back⟩

theorem intercalate_foldersOf (name : String) :
    "/".intercalate (foldersOf name ++ [String.ofList (baseOf name)]) = name := by
  rw [← String.toList_inj, Name.toList_intercalate_slash, List.map_append, List.map_singleton,
    String.toList_ofList, ← segments_eq, Name.join_segments]

/-! ### Names of files -/

/-- What tells the variant in the name of a file. -/
def variantPart : Option String → List Char
  | some v => '.' :: v.toList
  | none => []

/-- A base with the mark of its kind. -/
def withMark (kind : Kind) (base : List Char) : List Char :=
  (if kind = .part then ['_'] else []) ++ base

/-- The name of a file before its ending. -/
def stem (kind : Kind) (base : List Char) (variant : Option String) : List Char :=
  withMark kind base ++ variantPart variant

theorem fileName_eq (kind : Kind) (base : List Char) (variant : Option String) :
    fileName kind base variant = String.ofList (stem kind base variant ++ ending) := by
  cases variant <;> simp [fileName, stem, withMark, variantPart]

theorem dot_notMem_withMark {kind : Kind} {base : List Char} (plain : '.' ∉ base) :
    '.' ∉ withMark kind base := by
  cases kind <;> simp [withMark, plain]

/-- Takes a stem without its mark apart at the first dot. -/
def cutStem (kind : Kind) (cs : List Char) : Kind × List Char × Option String :=
  match cs.dropWhile (· != '.') with
  | _ :: variant => (kind, cs.takeWhile (· != '.'), some (String.ofList variant))
  | [] => (kind, cs, none)

theorem splitStem_mark (cs : List Char) : splitStem ('_' :: cs) = cutStem .part cs := rfl

theorem splitStem_of_unmarked {cs : List Char} (unmarked : cs.head? ≠ some '_') :
    splitStem cs = cutStem .whole cs := by
  unfold splitStem
  split
  next kind rest heq =>
    split at heq
    · exact absurd rfl unmarked
    · cases heq
      rfl

theorem cutStem_append {base : List Char} (plain : '.' ∉ base) (kind : Kind)
    (variant : Option String) :
    cutStem kind (base ++ variantPart variant) = (kind, base, variant) := by
  have all : ∀ c ∈ base, (c != '.') = true := fun c mem =>
    bne_iff_ne.mpr fun dot => plain (dot ▸ mem)
  unfold cutStem
  cases variant with
  | none => simp [variantPart, List.dropWhile_eq_nil_iff.mpr all]
  | some v =>
    rw [List.takeWhile_append_of_pos all, List.dropWhile_append_of_pos all]
    simp [variantPart]

theorem eq_append_of_cutStem {cs base : List Char} {kind kind' : Kind} {variant : Option String}
    (cut : cutStem kind cs = (kind', base, variant)) :
    kind' = kind ∧ cs = base ++ variantPart variant ∧ '.' ∉ base := by
  unfold cutStem at cut
  split at cut
  · next c rest here =>
    cases cut
    have dot : c = '.' := by
      have := List.head_dropWhile_not (· != '.') (l := cs) (by simp [here])
      simpa [here] using this
    refine ⟨rfl, ?_, fun mem => ?_⟩
    · rw [variantPart, String.toList_ofList, ← dot, ← here, dot, List.takeWhile_append_dropWhile]
    · have other := List.mem_takeWhile_imp (p := (· != '.')) mem
      exact absurd rfl (bne_iff_ne.mp other)
  · next here =>
    cases cut
    refine ⟨rfl, (List.append_nil cs).symm, fun mem => ?_⟩
    exact absurd rfl (bne_iff_ne.mp (List.dropWhile_eq_nil_iff.mp here _ mem))

/-- A stem is taken apart into what it was made of. -/
theorem splitStem_stem {kind : Kind} {base : List Char} {variant : Option String}
    (plain : '.' ∉ base) (filled : base ≠ []) (unmarked : kind = .whole → base.head? ≠ some '_') :
    splitStem (stem kind base variant) = (kind, base, variant) := by
  cases kind with
  | part => exact (splitStem_mark _).trans (cutStem_append plain .part variant)
  | whole =>
    have front : (base ++ variantPart variant).head? ≠ some '_' := by
      cases base with
      | nil => exact absurd rfl filled
      | cons c r => exact unmarked rfl
    exact (splitStem_of_unmarked front).trans (cutStem_append plain .whole variant)

/-- What a stem is taken apart into makes it up. -/
theorem eq_stem_of_splitStem {cs base : List Char} {kind : Kind} {variant : Option String}
    (split : splitStem cs = (kind, base, variant)) :
    cs = stem kind base variant ∧ '.' ∉ base ∧ (kind = .whole → base.head? ≠ some '_') := by
  by_cases mark : cs.head? = some '_'
  · obtain ⟨rest, rfl⟩ := List.head?_eq_some_iff.mp mark
    rw [splitStem_mark] at split
    obtain ⟨rfl, made, plain⟩ := eq_append_of_cutStem split
    exact ⟨by rw [made]; rfl, plain, nofun⟩
  · rw [splitStem_of_unmarked mark] at split
    obtain ⟨rfl, made, plain⟩ := eq_append_of_cutStem split
    refine ⟨made, plain, fun _ front => mark ?_⟩
    obtain ⟨rest, rfl⟩ := List.head?_eq_some_iff.mp front
    rw [made]
    rfl

/-! ### Files of names -/

theorem fileOf_eq_ok_iff {kind : Kind} {name : String} {variant : Option String} {path : Path} :
    fileOf kind name variant = .ok path ↔ Name.checkName name = .ok () ∧
      checkVariant? variant = .ok () ∧
        path = foldersOf name ++ [fileName kind (baseOf name) variant] := by
  have last : (Name.segments name.toList).getLast?.getD [] = baseOf name := by
    rw [List.getLast?_eq_some_getLast (Name.segments_ne_nil _)]
    rfl
  have value : fileOf kind name variant = do
      Name.checkName name
      checkVariant? variant
      return foldersOf name ++ [fileName kind (baseOf name) variant] := by
    rw [← last]
    rfl
  rw [value]
  cases Name.checkName name with
  | error err => exact ⟨nofun, fun h => nomatch h.1⟩
  | ok _ =>
    cases checkVariant? variant with
    | error err => exact ⟨nofun, fun h => nomatch h.2.1⟩
    | ok _ =>
      refine ⟨fun ok => ?_, fun ⟨_, _, same⟩ => by rw [same]; rfl⟩
      cases ok
      exact ⟨rfl, rfl, rfl⟩

theorem isSegment_baseOf {name : String} (named : Name.checkName name = .ok ()) :
    Name.isSegment (baseOf name) = true :=
  Name.checkName_eq_ok_iff.mp named _ (List.getLast_mem _)

theorem isSegment_of_mem_foldersOf {name folder : String} (named : Name.checkName name = .ok ())
    (mem : folder ∈ foldersOf name) : Name.isSegment folder.toList = true := by
  obtain ⟨s, inside, rfl⟩ := List.mem_map.mp mem
  rw [String.toList_ofList]
  exact Name.checkName_eq_ok_iff.mp named s (List.dropLast_subset _ inside)

theorem isSegment_of_checkVariant? {v : String} (varied : checkVariant? (some v) = .ok ()) :
    Name.isSegment v.toList = true :=
  (Name.checkVariant_eq_ok_iff v).mp varied

theorem slash_notMem_of_mem_foldersOf {name folder : String} (mem : folder ∈ foldersOf name) :
    '/' ∉ folder.toList := by
  obtain ⟨s, inside, rfl⟩ := List.mem_map.mp mem
  rw [String.toList_ofList]
  exact Name.slash_notMem_of_mem_segments (List.dropLast_subset _ inside)

theorem slash_notMem_baseOf (name : String) : '/' ∉ baseOf name :=
  Name.slash_notMem_of_mem_segments (List.getLast_mem _)

/-! ### Names of files, read back -/

/-- The name of a file is read back as what it was made of. -/
theorem referenceOf_fileName {kind : Kind} {folder : Path} {base : List Char}
    {variant : Option String} (plain : '.' ∉ base) (filled : base ≠ [])
    (unmarked : kind = .whole → base.head? ≠ some '_')
    (named : Name.checkName ("/".intercalate (folder ++ [String.ofList base])) = .ok ())
    (varied : checkVariant? variant = .ok ()) :
    referenceOf folder (fileName kind base variant) =
      some (kind, ⟨"/".intercalate (folder ++ [String.ofList base]), variant, none⟩) := by
  have ends : ending.isSuffixOf (stem kind base variant ++ ending) = true :=
    List.isSuffixOf_iff_suffix.mpr (List.suffix_append _ _)
  simp only [referenceOf, fileName_eq, String.toList_ofList, ends, Bool.not_true,
    Bool.false_eq_true, if_false, List.length_append, Nat.add_sub_cancel, List.take_left',
    splitStem_stem plain filled unmarked, named, varied]

/-- What the name of a file is read as makes it up. -/
theorem eq_fileName_of_referenceOf {kind : Kind} {folder : Path} {name : String} {r : Reference}
    (read : referenceOf folder name = some (kind, r)) :
    ∃ base, name = fileName kind base r.variant ∧ '.' ∉ base ∧
      (kind = .whole → base.head? ≠ some '_') ∧
      r.name = "/".intercalate (folder ++ [String.ofList base]) ∧
      Name.checkName r.name = .ok () ∧ checkVariant? r.variant = .ok () ∧ r.version = none := by
  unfold referenceOf at read
  simp only at read
  split at read
  · cases read
  · next ends =>
    have suffix : ending <:+ name.toList :=
      List.isSuffixOf_iff_suffix.mp (by simpa using ends)
    obtain ⟨cs, whole⟩ := suffix
    rw [← whole, List.length_append, Nat.add_sub_cancel, List.take_left'] at read
    · rcases cut : splitStem cs with ⟨kind', base, variant⟩
      rw [cut] at read
      simp only at read
      split at read
      · next named varied =>
        cases read
        obtain ⟨made, plain, unmarked⟩ := eq_stem_of_splitStem cut
        refine ⟨base, ?_, plain, unmarked, rfl, named, varied, rfl⟩
        rw [fileName_eq, ← made, whole, String.ofList_toList]
      · cases read
    · rfl

theorem slash_notMem_of_fileName {kind : Kind} {base : List Char} {variant : Option String}
    (plain : '/' ∉ (fileName kind base variant).toList) : '/' ∉ base := fun mem =>
  plain <| by
    rw [fileName_eq, String.toList_ofList, stem, withMark]
    simp [mem]

/-- What a file is read as is kept in that file. -/
theorem fileOf_of_referenceOf {kind : Kind} {folder : Path} {name : String} {r : Reference}
    (plain : ∀ n ∈ folder ++ [name], '/' ∉ n.toList)
    (read : referenceOf folder name = some (kind, r)) :
    fileOf kind r.name r.variant = .ok (folder ++ [name]) ∧ Unmarked kind r.name ∧
      r.version = none := by
  obtain ⟨base, file, -, unmarked, full, named, varied, version⟩ := eq_fileName_of_referenceOf read
  have slashless : '/' ∉ base :=
    slash_notMem_of_fileName (file ▸ plain name (List.mem_append_right _ List.mem_cons_self))
  obtain ⟨folders, last⟩ := foldersOf_baseOf_intercalate
    (fun n mem => plain n (List.mem_append_left _ mem)) slashless
  rw [← full] at folders last
  refine ⟨fileOf_eq_ok_iff.mpr ⟨named, varied, ?_⟩, ?_, version⟩
  · rw [folders, last, file]
  · rw [Unmarked, last]
    exact unmarked

/-- The file of a name is read as the name. -/
theorem referenceOf_of_fileOf {kind : Kind} {name : String} {variant : Option String} {path : Path}
    (ok : fileOf kind name variant = .ok path) (unmarked : Unmarked kind name) :
    referenceOf (foldersOf name) (fileName kind (baseOf name) variant) =
      some (kind, ⟨name, variant, none⟩) := by
  obtain ⟨named, varied, -⟩ := fileOf_eq_ok_iff.mp ok
  have segment := isSegment_baseOf named
  have joined : Name.checkName ("/".intercalate (foldersOf name ++ [String.ofList (baseOf name)])) =
      .ok () := by
    rw [intercalate_foldersOf]
    exact named
  have read := referenceOf_fileName (Name.dot_notMem_of_isSegment segment)
    (Name.isSegment_iff.mp segment).1 unmarked joined varied
  rw [intercalate_foldersOf] at read
  exact read

/-! ### Files shared -/

/-- The prompt whose file a partial has. -/
def marked (name : String) : String :=
  "/".intercalate (foldersOf name ++ [String.ofList ('_' :: baseOf name)])

theorem foldersOf_baseOf_marked (name : String) :
    foldersOf (marked name) = foldersOf name ∧ baseOf (marked name) = '_' :: baseOf name :=
  foldersOf_baseOf_intercalate (fun _ mem => slash_notMem_of_mem_foldersOf mem)
    (List.not_mem_cons_of_ne_of_not_mem (by decide) (slash_notMem_baseOf name))

theorem not_unmarked_marked (name : String) : ¬ Unmarked .whole (marked name) := fun unmarked => by
  rw [Unmarked, (foldersOf_baseOf_marked name).2] at unmarked
  exact unmarked rfl rfl

/-- What two names that are kept in one file have in common. -/
theorem same_of_fileOf {kind other : Kind} {name name' : String} {variant variant' : Option String}
    {path : Path} (here : fileOf kind name variant = .ok path)
    (there : fileOf other name' variant' = .ok path) :
    foldersOf name = foldersOf name' ∧
      withMark kind (baseOf name) = withMark other (baseOf name') ∧ variant = variant' := by
  obtain ⟨named, -, made⟩ := fileOf_eq_ok_iff.mp here
  obtain ⟨named', -, made'⟩ := fileOf_eq_ok_iff.mp there
  obtain ⟨folders, file⟩ := List.append_inj' (made.symm.trans made') rfl
  have stems : stem kind (baseOf name) variant = stem other (baseOf name') variant' := by
    have files := List.singleton_inj.mp file
    rw [fileName_eq, fileName_eq, String.ofList_inj] at files
    exact List.append_cancel_right files
  have plain {name} (named : Name.checkName name = .ok ()) (kind : Kind) :
      '.' ∉ withMark kind (baseOf name) :=
    dot_notMem_withMark (Name.dot_notMem_of_isSegment (isSegment_baseOf named))
  have cut : (Kind.whole, withMark kind (baseOf name), variant) =
      (.whole, withMark other (baseOf name'), variant') := by
    rw [← cutStem_append (plain named kind), ← cutStem_append (plain named' other)]
    exact congrArg (cutStem .whole) stems
  simp only [Prod.mk.injEq, true_and] at cut
  exact ⟨folders, cut⟩

/-- Within a kind, files are not shared. -/
theorem fileOf_injective {kind : Kind} {name name' : String} {variant variant' : Option String}
    {path : Path} (here : fileOf kind name variant = .ok path)
    (there : fileOf kind name' variant' = .ok path) : name = name' ∧ variant = variant' := by
  obtain ⟨folders, base, variants⟩ := same_of_fileOf here there
  exact ⟨eq_of_foldersOf_of_baseOf folders (List.append_cancel_left base), variants⟩

theorem checkName_marked {name : String} (named : Name.checkName name = .ok ()) :
    Name.checkName (marked name) = .ok () := by
  rw [Name.checkName_eq_ok_iff]
  intro s mem
  obtain ⟨folders, base⟩ := foldersOf_baseOf_marked name
  rw [segments_eq, folders, base] at mem
  rcases List.mem_append.mp mem with mem | mem
  · obtain ⟨folder, inside, rfl⟩ := List.mem_map.mp mem
    exact isSegment_of_mem_foldersOf named inside
  · rw [List.mem_singleton.mp mem, Name.isSegment_iff]
    have chars := (Name.isSegment_iff.mp (isSegment_baseOf named)).2
    exact ⟨List.cons_ne_nil _ _, List.forall_mem_cons.mpr ⟨by decide, chars⟩⟩

/-- A prompt and a partial are kept in one file. -/
def SharesFile (prompt : String) (variant : Option String) (part : String)
    (variant' : Option String) : Prop :=
  ∃ path, fileOf .whole prompt variant = .ok path ∧ fileOf .part part variant' = .ok path

/-- A prompt has the file of a partial if and only if it has the partial's name, with the mark. -/
theorem sharesFile_iff {prompt part : String} {variant variant' : Option String} :
    SharesFile prompt variant part variant' ↔
      (∃ path, fileOf .part part variant' = .ok path) ∧ prompt = marked part ∧
        variant = variant' := by
  obtain ⟨folders, base⟩ := foldersOf_baseOf_marked part
  constructor
  · rintro ⟨path, here, there⟩
    obtain ⟨folders', base', variants⟩ := same_of_fileOf here there
    refine ⟨⟨path, there⟩, ?_, variants⟩
    exact eq_of_foldersOf_of_baseOf (folders'.trans folders.symm) (base'.trans base.symm)
  · rintro ⟨⟨path, there⟩, rfl, rfl⟩
    obtain ⟨named, varied, made⟩ := fileOf_eq_ok_iff.mp there
    refine ⟨path, fileOf_eq_ok_iff.mpr ⟨checkName_marked named, varied, ?_⟩, there⟩
    rw [made, folders, base, fileName_eq, fileName_eq]
    rfl

theorem Unmarked.not_sharesFile {prompt part : String} {variant variant' : Option String}
    (unmarked : Unmarked .whole prompt) : ¬ SharesFile prompt variant part variant' := fun shares =>
  not_unmarked_marked part ((sharesFile_iff.mp shares).2.1 ▸ unmarked)

end Promptry.Store
