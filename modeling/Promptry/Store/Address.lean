import Promptry.Marker.Segment
import Promptry.Prompt.Name
import Promptry.Store.Basic
import Promptry.Store.Tree

/-!
Where a prompt or a partial is kept: in the folders that its name tells, in a file named for the
rest, with the variant behind a dot; a partial's file starts with an underscore. The path is put
together as a text, which a name that is not checked could lead anywhere; `fileOf` says what comes
out for one that is. And back: what the file at a path holds. Main statements: `fileOf_ok` and
`locate_of_refused`.
-/

namespace Promptry.Store

inductive Kind where
  | whole
  | part
  deriving DecidableEq, Repr

/-- The ending of the files of a store. -/
def ending : List Char := ['.', 'p', 'r', 'o', 'm', 'p', 't']

/-- The name of the file that holds a variant. -/
def fileName (kind : Kind) (base : List Char) (variant : Option String) : String :=
  let start := if kind = .part then ['_'] else []
  let middle := match variant with
    | some v => '.' :: v.toList
    | none => []
  String.ofList (start ++ base ++ middle ++ ending)

/-- Checks the variant asked for, if there is one. -/
def checkVariant? : Option String → Except Name.NameError Unit
  | some v => Name.checkVariant v
  | none => .ok ()

/-- The path of a file below the root of a store. -/
def fileOf (kind : Kind) (name : String) (variant : Option String) :
    Except Name.NameError Path := do
  Name.checkName name
  checkVariant? variant
  let segments := Name.segments name.toList
  return segments.dropLast.map String.ofList ++
    [fileName kind (segments.getLast?.getD []) variant]

theorem fileOf_ok {kind : Kind} {name : String} {variant : Option String} {path : Path}
    (h : fileOf kind name variant = .ok path) :
    Name.checkName name = .ok () ∧ checkVariant? variant = .ok () := by
  unfold fileOf at h
  cases hn : Name.checkName name with
  | error e => rw [hn] at h; cases h
  | ok _ =>
    cases hv : checkVariant? variant with
    | error e => rw [hn, hv] at h; cases h
    | ok _ => exact ⟨rfl, rfl⟩

/-! ### Paths as texts -/

/-- The names in a path that is written as a text: what is empty and a single dot lead nowhere. -/
def namesIn (text : List Char) : Path :=
  ((Name.segments text).filter fun s => !(s.isEmpty || s == ['.'])).map String.ofList

/-- A path with a text behind it. A text with a slash in front starts at the top instead. -/
def joined (path : Path) (text : List Char) : Path :=
  if text.head? == some '/' then namesIn text else path ++ namesIn text

/-- The path of a file in a store. A prompt's file is named for the whole name, with its slashes; a
partial's for what is behind the last slash, because of its mark. -/
def locate (root : Path) (kind : Kind) (name : String) (variant : Option String) :
    Except Name.NameError Path := do
  Name.checkName name
  checkVariant? variant
  match kind with
  | .whole => return joined root (fileName .whole name.toList variant).toList
  | .part =>
    match Segment.splitLast? '/' name.toList with
    | some (folders, base) =>
      return joined (joined root folders) (fileName .part base variant).toList
    | none => return joined root (fileName .part name.toList variant).toList

theorem locate_of_refused {kind : Kind} {name : String} {variant : Option String}
    {e : Name.NameError} (h : fileOf kind name variant = .error e) (root : Path) :
    locate root kind name variant = .error e := by
  unfold fileOf at h
  unfold locate
  cases hn : Name.checkName name with
  | error e' => rw [hn] at h; cases h; rfl
  | ok _ =>
    cases hv : checkVariant? variant with
    | error e' => rw [hn, hv] at h; cases h; rfl
    | ok _ => rw [hn, hv] at h; cases h

/-! ### Files of a store -/

/-- Splits the name of a file before its ending: what kind it holds, the base and the variant. -/
def splitStem (stem : List Char) : Kind × List Char × Option String :=
  let (kind, stem) := match stem with
    | '_' :: r => (Kind.part, r)
    | r => (Kind.whole, r)
  match stem.dropWhile (· != '.') with
  | _ :: variant => (kind, stem.takeWhile (· != '.'), some (String.ofList variant))
  | [] => (kind, stem, none)

/-- What the file of a name in a folder holds, if it is one of a store. -/
def referenceOf (folder : Path) (name : String) : Option (Kind × Reference) :=
  let cs := name.toList
  if !ending.isSuffixOf cs then none
  else
    let (kind, base, variant) := splitStem (cs.take (cs.length - ending.length))
    let full := "/".intercalate (folder ++ [String.ofList base])
    match Name.checkName full, checkVariant? variant with
    | .ok _, .ok _ => some (kind, ⟨full, variant, none⟩)
    | _, _ => none

def isHidden (name : String) : Bool := name.toList.head? == some '.'

/-- What the files among the entries of a folder and below them hold, hidden files and folders
apart. -/
def referencesIn (folder : Path) : List (String × Entry) → List (Kind × Reference)
  | [] => []
  | (name, .file _) :: rest =>
      (if isHidden name then [] else (referenceOf folder name).toList) ++ referencesIn folder rest
  | (name, .folder entries) :: rest =>
      (if isHidden name then [] else referencesIn (folder ++ [name]) entries) ++
        referencesIn folder rest

end Promptry.Store
