import Promptry.Table

/-!
Trees of files and folders, and what becomes of them. A path is looked up from folder to folder; it
is blocked where a file stands in place of a folder. Nothing but what stands in the tree is in the
way of a change here: how long names may be is left to the store. Folders are made one after the
other, the tree of each step being left behind where a later one fails; `makeFolders` says what
comes out. Main statement: `find_makeFolders`.
-/

namespace Promptry.Store

/-- The names on the way to a file or folder. -/
abbrev Path := List String

inductive Entry where
  /-- A file, with its text unless its bytes are none. -/
  | file (text : Option String)
  | folder (entries : List (String × Entry))
  deriving Repr, Inhabited

/-- What stands at a path. -/
inductive Found where
  | here (e : Entry)
  | missing
  /-- A file stands in place of a folder. -/
  | blocked

namespace Entry

def isFolder : Entry → Bool
  | folder _ => true
  | file _ => false

def find : Entry → Path → Found
  | e, [] => .here e
  | .file _, _ :: _ => .blocked
  | .folder entries, name :: path =>
    match Table.get? entries name with
    | some e => find e path
    | none => .missing

theorem find_nil (e : Entry) : e.find [] = .here e := by cases e <;> rfl

/-! ### Making folders -/

/-- Why a folder is not made. -/
inductive Obstacle where
  /-- The folder that it belongs into is missing. -/
  | noParent
  /-- It is there already, or a file stands there or in place of a folder on the way. -/
  | inTheWay
  deriving DecidableEq, Repr

/-- Makes a folder in one that is there. -/
def makeFolder : Entry → Path → Except Obstacle Entry
  | .folder entries, name :: path =>
    match Table.get? entries name, path with
    | some e, _ => (makeFolder e path).map fun e => .folder (Table.insert entries name e)
    | none, [] => .ok (.folder (Table.insert entries name (.folder [])))
    | none, _ :: _ => .error .noParent
  | _, _ => .error .inTheWay

def hasFolder (e : Entry) (path : Path) : Bool :=
  match e.find path with
  | .here (.folder _) => true
  | _ => false

/-- Makes a folder in one that is there, unless it is there already. -/
def ensureFolder (e : Entry) (path : Path) : Option Entry :=
  match e.makeFolder path with
  | .ok e' => some e'
  | .error _ => if e.hasFolder path then some e else none

/-- Whether a step was made, and the tree behind it. -/
def outcome (e : Entry) : Option Entry → Bool × Entry
  | some e' => (true, e')
  | none => (false, e)

/-- Makes a folder, and before it those that it belongs into where they are missing. The path is
given from its end. The answer is whether the folder is there; the folders that were made before a
step that fails are left behind. -/
def createFolders (e : Entry) : List String → Bool × Entry
  | [] => (e.isFolder, e)
  | name :: above =>
    let path := (name :: above).reverse
    match e.makeFolder path with
    | .error .noParent =>
      match createFolders e above with
      | (true, e') => e'.outcome (e'.ensureFolder path)
      | (false, e') => (false, e')
    | _ => e.outcome (e.ensureFolder path)

/-- Nested folders along a path. -/
def folders : Path → Entry
  | [] => .folder []
  | name :: path => .folder [(name, folders path)]

/-- All folders along a path that are missing, made at once. -/
def makeFolders : Entry → Path → Option Entry
  | .file _, _ => none
  | .folder entries, [] => some (.folder entries)
  | .folder entries, name :: path =>
    match Table.get? entries name with
    | some e => (makeFolders e path).map fun e => .folder (Table.insert entries name e)
    | none => some (.folder (Table.insert entries name (folders path)))

/-! ### Files -/

/-- Writes a file into a folder that is there. -/
def writeFile (text : Option String) : Entry → Path → Option Entry
  | .folder entries, [name] =>
    match Table.get? entries name with
    | some (.folder _) => none
    | _ => some (.folder (Table.insert entries name (.file text)))
  | .folder entries, name :: path =>
    match Table.get? entries name with
    | some e => (writeFile text e path).map fun e => .folder (Table.insert entries name e)
    | none => none
  | _, _ => none

/-- Removes a file. -/
def removeFile : Entry → Path → Option Entry
  | .folder entries, [name] =>
    match Table.get? entries name with
    | some (.file _) => some (.folder (Table.erase entries name))
    | _ => none
  | .folder entries, name :: path =>
    match Table.get? entries name with
    | some e => (removeFile e path).map fun e => .folder (Table.insert entries name e)
    | none => none
  | _, _ => none

mutual

/-- The number of files below an entry. -/
def fileCount : Entry → Nat
  | .file _ => 1
  | .folder entries => fileCountIn entries

def fileCountIn : List (String × Entry) → Nat
  | [] => 0
  | (_, e) :: rest => e.fileCount + fileCountIn rest

end

mutual

/-- The paths of all files and folders below an entry, those of folders with a slash at the end. -/
def paths (start : String) : Entry → List String
  | .file _ => []
  | .folder entries => pathsIn start entries

def pathsIn (start : String) : List (String × Entry) → List String
  | [] => []
  | (name, .file _) :: rest => (start ++ name) :: pathsIn start rest
  | (name, .folder entries) :: rest =>
      let inside := start ++ name ++ "/"
      inside :: pathsIn inside entries ++ pathsIn start rest

end

theorem find_folders (path : Path) : ∃ es, (folders path).find path = .here (.folder es) := by
  induction path with
  | nil => exact ⟨[], rfl⟩
  | cons name path ih =>
    obtain ⟨es, h⟩ := ih
    exact ⟨es, by simpa [folders, find, Table.get?] using h⟩

/-- The folders that were made are there. -/
theorem find_makeFolders {e e' : Entry} {path : Path} (h : e.makeFolders path = some e') :
    ∃ es, e'.find path = .here (.folder es) := by
  induction path generalizing e e' with
  | nil =>
    cases e with
    | file t => simp [makeFolders] at h
    | folder es => simp only [makeFolders, Option.some.injEq] at h; subst h; exact ⟨es, rfl⟩
  | cons name path ih =>
    cases e with
    | file t => simp [makeFolders] at h
    | folder es =>
      simp only [makeFolders] at h
      split at h
      · next c hc =>
        obtain ⟨c', hc', rfl⟩ := Option.map_eq_some_iff.1 h
        obtain ⟨inner, hi⟩ := ih hc'
        exact ⟨inner, by simpa [find, Table.get?_insert_self] using hi⟩
      · next hc =>
        cases h
        obtain ⟨inner, hi⟩ := find_folders path
        exact ⟨inner, by simpa [find, Table.get?_insert_self] using hi⟩

end Entry

end Promptry.Store
