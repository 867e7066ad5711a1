import Promptry.Prompt.Check
import Promptry.Store.Address

/-!
A store of prompts in a tree of files. Loading what is not there gives nothing; a source is checked
before it is saved. The file system takes names up to some length, and a path is followed to the
first that is longer: what comes before it is looked up, and made, as on any path. The length of
whole paths and the room on the disk have no limit. Main statements: `save_of_badName` and
`delete_of_badName`, that a name that is refused leaves the tree alone.
-/

namespace Promptry.Store

/-- A store below a folder. -/
structure Directory where
  /-- The name of the folder, for messages. -/
  place : String
  /-- The root of the store in the folder. -/
  root : Path := []
  tree : Entry := .folder []
  /-- How many bytes a name may have, if not any number of them. -/
  limit : Option Nat := some 255
  deriving Repr

/-- The root of a user's own store, in the home directory. -/
def defaultRoot (home : String) : String :=
  (if home.toList.getLast? == some '/' then home else home ++ "/") ++ ".dotprompt/prompts"

namespace Directory

/-- A path as messages show it. -/
def pathText (d : Directory) (path : Path) : String := "/".intercalate (d.place :: path)

/-! ### Names that are too long -/

/-- A name is short enough. -/
def takes (d : Directory) (name : String) : Bool := d.limit.all (name.utf8ByteSize ≤ ·)

/-- All names on a path are short enough. -/
def Fits (d : Directory) (path : Path) : Prop := ∀ name ∈ path, d.takes name = true

instance (d : Directory) (path : Path) : Decidable (d.Fits path) :=
  inferInstanceAs (Decidable (∀ name ∈ path, _))

/-- The part of a path in front of the first name that is too long. -/
def reach (d : Directory) (path : Path) : Path := path.takeWhile d.takes

/-- What is found at a path. In a folder that is there, a name that is too long is an error. -/
def find (d : Directory) (path : Path) : Found :=
  match d.tree.find (d.reach path) with
  | .here e => if d.Fits path then .here e else .blocked
  | found => found

/-- Makes the folders of a path that are missing, as far as names are short enough. -/
def createFolders (d : Directory) (path : Path) : Bool × Entry :=
  let (made, tree) := d.tree.createFolders (d.reach path).reverse
  (made && decide (d.Fits path), tree)

/-- Writes a source into a folder of a tree, under a name that is short enough. -/
def writeFile (d : Directory) (tree : Entry) (path : Path) (source : String) : Option Entry :=
  if d.Fits path then tree.writeFile (some source) path else none

/-- The path of a prompt or a partial. -/
def address (d : Directory) (kind : Kind) (name : String) (variant : Option String) :
    Except PromptError Path :=
  match locate d.root kind name variant with
  | .ok path => .ok path
  | .error e => .error (.badName e)

/-! ### Reading -/

/-- What the store holds of a kind, in order. -/
def listing (d : Directory) (kind : Kind) : Except PromptError (List Reference) :=
  match d.find d.root with
  | .missing => .ok []
  | .here (.folder entries) =>
      let found := (referencesIn [] entries).filter fun r => r.1 = kind
      .ok ((found.map (·.2)).mergeSort Reference.le)
  | _ => .error (.fault (.noListing (d.pathText d.root)))

def list (d : Directory) (kind : Kind) (o : ListOptions) : Except PromptError Page := do
  let items ← d.listing kind
  match o.cursor with
  | none => return paginate items 0 o.limit
  | some cursor =>
    match Numeral.ofText? cursor with
    | some start => return paginate items start o.limit
    | none => throw (.fault (.badCursor cursor))

def load (d : Directory) (kind : Kind) (name : String) (variant : Option String) :
    Except PromptError (Option StoredPrompt) := do
  let path ← d.address kind name variant
  match d.find path with
  | .here (.file (some source)) => return some ⟨⟨name, variant, none⟩, source⟩
  | .missing => return none
  | _ => throw (.fault (.noRead (d.pathText path)))

/-! ### Writing -/

/-- The answer of an operation that may change the store, and the store behind it. -/
abbrev Changed := Except PromptError Unit × Directory

/-- Makes the root. -/
def init (d : Directory) : Changed :=
  match d.createFolders d.root with
  | (true, tree) => (.ok (), { d with tree })
  | (false, tree) => (.error (.fault (.noInit (d.pathText d.root))), { d with tree })

/-- Writes a source that is sound. -/
def write (d : Directory) (path : Path) (source : String) : Changed :=
  match checkSource source with
  | .error e => (.error e, d)
  | .ok _ =>
    match d.createFolders path.dropLast with
    | (false, tree) => (.error (.fault (.noDirectory (d.pathText path.dropLast))), { d with tree })
    | (true, tree) =>
      match d.writeFile tree path source with
      | none => (.error (.fault (.noWrite (d.pathText path))), { d with tree })
      | some tree => (.ok (), { d with tree })

def save (d : Directory) (kind : Kind) (p : StoredPrompt) : Changed :=
  match d.address kind p.reference.name p.reference.variant with
  | .ok path => d.write path p.source
  | .error e => (.error e, d)

def remove (d : Directory) (path : Path) (name : String) : Changed :=
  match d.find path with
  | .here _ =>
    match d.tree.removeFile path with
    | some tree => (.ok (), { d with tree })
    | none => (.error (.fault (.noDelete name)), d)
  | _ => (.error (.fault (.notFound name)), d)

def delete (d : Directory) (kind : Kind) (name : String) (variant : Option String) : Changed :=
  match d.address kind name variant with
  | .ok path => d.remove path name
  | .error e => (.error e, d)

theorem save_of_badName {d : Directory} {kind : Kind} {p : StoredPrompt} {e : Name.NameError}
    (h : fileOf kind p.reference.name p.reference.variant = .error e) :
    d.save kind p = (.error (.badName e), d) := by
  simp [save, address, locate_of_refused h]

theorem delete_of_badName {d : Directory} {kind : Kind} {name : String} {variant : Option String}
    {e : Name.NameError} (h : fileOf kind name variant = .error e) :
    d.delete kind name variant = (.error (.badName e), d) := by
  simp [delete, address, locate_of_refused h]

end Directory

end Promptry.Store
