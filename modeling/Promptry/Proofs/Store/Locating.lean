import Promptry.Proofs.Marker.Part
import Promptry.Proofs.Store.Naming

/-!
Where files are kept. A name that is accepted leads, by the text of its path, to its own segments
below the root: none of them is empty or stands for another folder, so that the text neither starts
anew at the top nor loses or leaves a folder on the way. Main statements: `joined_join`,
`plain_of_fileOf` and `locate_of_fileOf`.
-/

namespace Promptry.Store

/-! ### Joining -/

/-- What is a name in a path, and nothing else: it has no slash of either kind, and does not stand
for no folder, the same folder or the one above. -/
structure Plain (cs : List Char) : Prop where
  filled : cs ≠ []
  notHere : cs ≠ ['.']
  notAbove : cs ≠ ['.', '.']
  noSlash : '/' ∉ cs
  noBackslash : '\\' ∉ cs

theorem plain_of_isSegment {cs : List Char} (ok : Name.isSegment cs = true) : Plain cs where
  filled := (Name.isSegment_iff.mp ok).1
  notHere same := Name.dot_notMem_of_isSegment ok (same ▸ List.mem_cons_self)
  notAbove same := Name.dot_notMem_of_isSegment ok (same ▸ List.mem_cons_self)
  noSlash := Name.slash_notMem_of_isSegment ok
  noBackslash mem := by
    have here := (Name.isSegment_iff.mp ok).2 _ mem
    rw [Name.not_isNameChar_backslash] at here
    cases here

/-- Plain names that are joined to a text lead on from a path, each of them by one step. -/
theorem joined_join {ss : List (List Char)} (some : ss ≠ []) (plain : ∀ s ∈ ss, Plain s)
    (path : Path) : joined path (Name.join ss) = path ++ ss.map String.ofList := by
  have segments : Name.segments (Name.join ss) = ss :=
    Name.segments_join some fun s mem => (plain s mem).noSlash
  have front : (Name.join ss).head? ≠ .some '/' := fun front => by
    obtain ⟨rest, text⟩ := List.head?_eq_some_iff.mp front
    rw [text] at segments
    exact (plain [] (segments ▸ List.mem_cons_self)).filled rfl
  have kept : ss.filter (fun s => !(s.isEmpty || s == ['.'])) = ss := by
    refine List.filter_eq_self.mpr fun s mem => ?_
    simp [(plain s mem).filled, (plain s mem).notHere]
  rw [joined, if_neg (by simpa using front), namesIn, segments, kept]

theorem joined_of_plain {s : List Char} (plain : Plain s) (path : Path) :
    joined path s = path ++ [String.ofList s] :=
  joined_join (List.cons_ne_nil s []) (by simpa using plain) path

theorem join_concat_append (front : List (List Char)) (last rest : List Char) :
    Name.join (front ++ [last]) ++ rest = Name.join (front ++ [last ++ rest]) := by
  induction front with
  | nil => rfl
  | cons s front ih =>
    cases front with
    | nil => simp [Name.join]
    | cons t front =>
      simp only [List.cons_append, Name.join, List.append_assoc] at ih ⊢
      rw [ih]

theorem join_concat {front : List (List Char)} (some : front ≠ []) (last : List Char) :
    Name.join (front ++ [last]) = Name.join front ++ '/' :: last := by
  induction front with
  | nil => exact absurd rfl some
  | cons s front ih =>
    cases front with
    | nil => rfl
    | cons t front =>
      have below := ih (List.cons_ne_nil t front)
      simp only [List.cons_append, Name.join, List.append_assoc] at below ⊢
      rw [below]

/-! ### Files -/

theorem chars_stem {kind : Kind} {base : List Char} {variant : Option String}
    (named : ∀ c ∈ base, Name.isNameChar c = true) (varied : checkVariant? variant = .ok ()) :
    ∀ c ∈ stem kind base variant, Name.isNameChar c = true ∨ c = '.' := by
  intro c mem
  rcases List.mem_append.mp mem with mem | mem
  · rcases List.mem_append.mp mem with mark | mem
    · cases kind with
      | whole => cases mark
      | part => exact .inl (List.mem_singleton.mp mark ▸ by decide)
    · exact .inl (named c mem)
  · cases variant with
    | none => cases mem
    | some v =>
      rcases List.mem_cons.mp mem with dot | mem
      · exact .inr dot
      · exact .inl ((Name.isSegment_iff.mp (isSegment_of_checkVariant? varied)).2 c mem)

theorem plain_fileName {kind : Kind} {base : List Char} {variant : Option String}
    (named : Name.isSegment base = true) (varied : checkVariant? variant = .ok ()) :
    Plain (fileName kind base variant).toList := by
  have chars : ∀ c ∈ stem kind base variant ++ ending, Name.isNameChar c = true ∨ c = '.' := by
    intro c mem
    rcases List.mem_append.mp mem with mem | mem
    · exact chars_stem (Name.isSegment_iff.mp named).2 varied c mem
    · have letters : ending.all (fun c => Name.isNameChar c || c == '.') = true := by decide
      simpa using List.all_eq_true.mp letters c mem
  have long : ending.length ≤ (stem kind base variant ++ ending).length := by simp
  rw [fileName_eq, String.toList_ofList]
  generalize stem kind base variant ++ ending = text at chars long
  constructor
  · rintro rfl
    exact absurd long (by decide)
  · rintro rfl
    exact absurd long (by decide)
  · rintro rfl
    exact absurd long (by decide)
  · exact fun mem => absurd (chars _ mem) (by decide)
  · exact fun mem => absurd (chars _ mem) (by decide)

theorem plain_of_fileOf {kind : Kind} {name : String} {variant : Option String} {path : Path}
    (ok : fileOf kind name variant = .ok path) : ∀ n ∈ path, Plain n.toList := by
  obtain ⟨named, varied, rfl⟩ := fileOf_eq_ok_iff.mp ok
  intro n mem
  rcases List.mem_append.mp mem with mem | mem
  · exact plain_of_isSegment (isSegment_of_mem_foldersOf named mem)
  · rw [List.mem_singleton.mp mem]
    exact plain_fileName (isSegment_baseOf named) varied

/-- The names on the way to a file, and its own, hold no slash. -/
theorem slash_notMem_of_fileOf {kind : Kind} {name : String} {variant : Option String} {path : Path}
    (ok : fileOf kind name variant = .ok path) : ∀ n ∈ path, '/' ∉ n.toList :=
  fun n mem => (plain_of_fileOf ok n mem).noSlash

/-- The text of an accepted name's path leads to its file below the root. -/
theorem locate_of_fileOf {kind : Kind} {name : String} {variant : Option String} {path : Path}
    (ok : fileOf kind name variant = .ok path) (root : Path) :
    locate root kind name variant = .ok (root ++ path) := by
  have plain := plain_of_fileOf ok
  obtain ⟨named, varied, rfl⟩ := fileOf_eq_ok_iff.mp ok
  have plainFile := plain _ (List.mem_append_right _ (List.mem_singleton.mpr rfl))
  have plainFolders : ∀ s ∈ (foldersOf name).map String.toList, Plain s := fun s mem => by
    obtain ⟨n, inside, rfl⟩ := List.mem_map.mp mem
    exact plain n (List.mem_append_left _ inside)
  have text : name.toList = Name.join ((foldersOf name).map String.toList ++ [baseOf name]) := by
    rw [← segments_eq, Name.join_segments]
  have back : ((foldersOf name).map String.toList).map String.ofList = foldersOf name := by
    simp [Function.comp_def]
  unfold locate
  rw [named, varied]
  cases kind with
  | whole =>
    have file : (fileName .whole name.toList variant).toList =
        Name.join ((foldersOf name).map String.toList ++
          [(fileName .whole (baseOf name) variant).toList]) := by
      rw [fileName_eq, fileName_eq, String.toList_ofList, String.toList_ofList]
      change name.toList ++ variantPart variant ++ ending =
        Name.join (_ ++ [baseOf name ++ variantPart variant ++ ending])
      rw [List.append_assoc, List.append_assoc, ← join_concat_append, ← text]
    have all : ∀ s ∈ (foldersOf name).map String.toList ++
        [(fileName .whole (baseOf name) variant).toList], Plain s := fun s mem =>
      (List.mem_append.mp mem).elim (plainFolders s)
        fun last => List.mem_singleton.mp last ▸ plainFile
    simp only [bind, Except.bind, pure, Except.pure, file, joined_join (by simp) all,
      List.map_append, List.map_singleton, back, String.ofList_toList]
  | part =>
    by_cases none : foldersOf name = []
    · have base : name.toList = baseOf name := by rw [text, none]; rfl
      have split := Segment.splitLast?_eq_none (slash_notMem_baseOf name)
      simp only [bind, Except.bind, pure, Except.pure, base, split, none, List.nil_append,
        joined_of_plain plainFile, String.ofList_toList]
    · have split : Segment.splitLast? '/' name.toList =
          some (Name.join ((foldersOf name).map String.toList), baseOf name) := by
        rw [text, join_concat (by simpa using none)]
        exact Segment.splitLast?_append _ (slash_notMem_baseOf name)
      simp only [bind, Except.bind, pure, Except.pure, split, joined_of_plain plainFile,
        joined_join (by simpa using none) plainFolders, back, String.ofList_toList,
        List.append_assoc]

end Promptry.Store
