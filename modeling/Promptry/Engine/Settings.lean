import Promptry.Yaml.Json

/-!
Settings of an engine, written in YAML: the model to use if a prompt names none, configurations of
models, and whether names that cannot be resolved are errors. Keys that are not known are passed
over with whatever they hold.
-/

namespace Promptry

/-- Configurations of models, by their names. -/
abbrev ModelConfigs := Table Fields

structure Settings where
  defaultModel : Option String := none
  modelConfigs : ModelConfigs := []
  strict : Bool := false
  deriving Repr

namespace Settings

open Yaml
open Yaml.Value (Following follow)

/-- A scalar's text, whatever it means. -/
def text (d : Yaml.Document) (n : Node) : Following String := do
  match ← follow d n with
  | .scalar _ _ s => return s
  | _ => failure

/-- The entries of a mapping; an empty scalar is a mapping without any. -/
def entries (d : Yaml.Document) (n : Node) : Following (List (Node × Node)) := do
  match ← follow d n with
  | .mapping _ es => return es
  | .scalar _ _ "" => return []
  | _ => failure

/-- A scalar's text, or nothing if it is a plain null. -/
def optionalText (d : Yaml.Document) (n : Node) : Following (Option String) := do
  match ← follow d n with
  | .scalar tag .plain s =>
    match tag with
    | some "tag:yaml.org,2002:null" => if Scalar.isNullWord s then return none else failure
    | some _ => return some s
    | none => return if s.isEmpty || Scalar.isNullWord s then none else some s
  | .scalar _ _ s => return some s
  | _ => failure

/-- A truth value, plain or a literal block with the tag of one. -/
def truth (d : Yaml.Document) (n : Node) : Following Bool := do
  match ← follow d n with
  | .scalar tag style s =>
    if style = .plain || (style = .literal && tag = some "tag:yaml.org,2002:bool") then
      match Scalar.bool? s with
      | some b => return b
      | none => failure
    else failure
  | _ => failure

/-- Refuses a node with a local tag. -/
def noLocalTag (tag : Option String) : Following Unit :=
  if (localTag? tag).isSome then failure else return ()

/-- A value that may hold `depth` levels of collections. -/
def json (d : Yaml.Document) (depth : Nat) (n : Node) : Following Json := do
  match ← follow d n with
  | .aliasOf _ => failure
  | .scalar tag style s =>
    noLocalTag tag
    return Value.scalarJson (← Scalar.read? tag style s)
  | .sequence tag items =>
    noLocalTag tag
    match depth with
    | 0 => failure
    | depth + 1 => return .arr (← items.mapM fun n => json d depth n)
  | .mapping tag es =>
    noLocalTag tag
    match depth with
    | 0 => failure
    | depth + 1 =>
      return .obj (Fields.ofEntries (← es.mapM fun (e : Node × Node) => do
        return (← text d e.1, ← json d depth e.2)))

/-- The configuration of a model. -/
def config (d : Yaml.Document) (n : Node) : Following Fields := do
  let es ← (← entries d n).mapM fun (e : Node × Node) => do
    return (← text d e.1, ← json d 125 e.2)
  return Fields.ofEntries es

def configs (d : Yaml.Document) (n : Node) : Following ModelConfigs := do
  (← entries d n).foldlM (fun cs (e : Node × Node) => do
    let key ← text d e.1
    return Table.insert cs key (← config d e.2)) []

/-- Reads the entries of the settings; `seen` are the keys known that were before. -/
def readEntries (d : Yaml.Document) (seen : List String) (s : Settings) :
    List (Node × Node) → Following Settings
  | [] => return s
  | (k, v) :: rest => do
    let key ← text d k
    if seen.contains key then failure
    else
      match key with
      | "defaultModel" =>
          readEntries d (key :: seen) { s with defaultModel := ← optionalText d v } rest
      | "modelConfigs" =>
          readEntries d (key :: seen) { s with modelConfigs := ← configs d v } rest
      | "strict" => readEntries d (key :: seen) { s with strict := ← truth d v } rest
      | _ => readEntries d seen s rest

/-- The settings of a text. -/
def ofText? (source : String) : Option Settings := do
  let d ← Yaml.Document.ofText? source.toList
  match d.root with
  | none => some {}
  | some n => (do readEntries d [] {} (← entries d n) : Following Settings).run' (100 * d.size)

def encode (s : Settings) : Json :=
  .obj ((match s.defaultModel with
      | some m => [("defaultModel", .str m)]
      | none => []) ++
    [("modelConfigs", .obj (s.modelConfigs.map fun c => (c.1, .obj c.2))),
      ("strict", .bool s.strict)])

end Settings

end Promptry
