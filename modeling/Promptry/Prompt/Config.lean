import Promptry.Prompt.Codec

/-!
Metadata out of the settings at the head of a prompt. Reserved keys are the fields of the metadata;
any other key belongs to an extension, and what stands before its last dot is the name space that
its value goes to. Main statement: `addExtension_plain`.
-/

namespace Promptry.Metadata

/-- The keys that are fields of the metadata. -/
def reservedKeys : List String :=
  ["config", "description", "ext", "input", "metadata", "model", "name", "output", "raw",
    "toolDefs", "tools", "variant", "version"]

/-- A key with a dot: what stands before and behind the last one. -/
def splitKey? (key : String) : Option (String × String) :=
  let back := key.toList.reverse
  match back.dropWhile (· != '.') with
  | _ :: front =>
      some (String.ofList front.reverse, String.ofList (back.takeWhile (· != '.')).reverse)
  | [] => none

/-- Puts the value of an extension's key where it belongs. What stands under the name of a name
space and is none gives way to it. -/
def addExtension (ext : Fields) (key : String) (v : Json) : Fields :=
  match splitKey? key with
  | none => Fields.insert ext key v
  | some (space, child) =>
    let inside := match Fields.get? ext space with
      | some (.obj fs) => fs
      | _ => []
    Fields.insert ext space (.obj (Fields.insert inside child v))

theorem addExtension_plain {key : String} (h : splitKey? key = none) (ext : Fields) (v : Json) :
    addExtension ext key v = Fields.insert ext key v := by
  simp [addExtension, h]

/-- The fields under reserved keys. -/
def reserved (config : Fields) : Fields := config.filter fun f => reservedKeys.contains f.1

/-- The fields of extensions. -/
def extensions (config : Fields) : Fields :=
  (config.filter fun f => !reservedKeys.contains f.1).foldl (fun ext f => addExtension ext f.1 f.2)
    []

/-- The metadata of the settings at the head of a prompt. -/
def ofConfig (config : Fields) : Except DecodeError Metadata :=
  if config.isEmpty then .ok {}
  else
    match decode (.obj (reserved config)) with
    | .error e => .error e
    | .ok m =>
      let ext := extensions config
      .ok { m with
        ext := if ext.isEmpty then m.ext else mergeFields m.ext (some ext)
        raw := some config }

end Promptry.Metadata
