import Promptry.Schema.FieldKey
import Promptry.Json.Basic
import Promptry.Lookup

/-!
Schemas written in shorthand, and the JSON Schema they stand for. A text names a scalar type or a
schema to be looked up, with a description behind a comma; an object lists fields. The names asked
for are recorded in the order of the document.
-/

namespace Promptry.Schema

/-- Why a shorthand stands for no schema. -/
inductive SchemaError where
  | notShorthand (kind : String)
  | enumNotList (key kind : String)
  | unknownForm (word : String)
  | unsupportedType (name : String)
  | unknownSchema (name : String)
  | lookupFailed (name cause : String)
  deriving DecidableEq, Repr

def SchemaError.message : SchemaError → String
  | notShorthand kind => "only objects and strings are allowed, got " ++ kind
  | enumNotList key kind => "enum values for '" ++ key ++ "' must be a list, got " ++ kind
  | unknownForm word =>
      "parenthetical types must be 'object', 'array' or 'enum', got '" ++ word ++ "'"
  | unsupportedType name => "unsupported scalar type '" ++ name ++ "'"
  | unknownSchema name => "could not find schema with name '" ++ name ++ "'"
  | lookupFailed name cause => "schema resolver failed for '" ++ name ++ "': " ++ cause

/-- A conversion: it records the names that it asks for, last first. -/
abbrev Asking := ExceptT SchemaError (StateM (List String))

/-- The types that need no look-up. -/
def scalarTypes : List String := ["any", "boolean", "integer", "null", "number", "string"]

/-- The key whose value all other fields match. -/
def wildcard : String := "(*)"

/-- Objects that are a JSON Schema already. -/
def isJsonSchema : Json → Bool
  | .obj fs => Fields.contains fs "type" || Fields.contains fs "properties"
  | _ => false

/-- The schema of a scalar type. -/
def scalarSchema (type : String) : Json :=
  if type = "any" then .obj [] else .obj [("type", .str type)]

/-- The schema that a name stands for. -/
def named (resolver : Option (Resolver Json)) (name : String) : Asking Json := do
  match resolver with
  | none => throw (.unsupportedType name)
  | some resolve =>
    modify (name :: ·)
    match resolve name with
    | .found s => return s
    | .missing => throw (.unknownSchema name)
    | .failed cause => throw (.lookupFailed name cause)

/-- Adds a description to a schema, if it is an object. -/
def describe (description : Option String) (schema : Json) : Json :=
  match description, schema with
  | some d, .obj fs => .obj (Fields.insert fs "description" (.str d))
  | _, schema => schema

def isNull : Json → Bool
  | .null => true
  | _ => false

def isNullType : Json → Bool
  | .str s => s == "null"
  | _ => false

/-- The schema that also accepts null. A list of values gets null as a member, else the type gets it
as an alternative. -/
def nullable (schema : Json) : Json :=
  match schema with
  | .obj fs =>
    match Fields.get? fs "enum" with
    | some (.arr values) =>
        if values.any isNull then schema
        else .obj (Fields.insert fs "enum" (.arr (values ++ [.null])))
    | _ =>
      match Fields.get? fs "type" with
      | some (.str t) =>
          if t = "null" then schema
          else .obj (Fields.insert fs "type" (.arr [.str t, .str "null"]))
      | some (.arr types) =>
          if types.any isNullType then schema
          else .obj (Fields.insert fs "type" (.arr (types ++ [.str "null"])))
      | _ => schema
  | _ => schema

/-- An object schema while its fields are read. -/
structure ObjectDraft where
  properties : Fields := []
  /-- The names of required fields, last first. -/
  required : List String := []
  additional : Json := .bool false

namespace ObjectDraft

def schema (d : ObjectDraft) : Json :=
  .obj ([("type", .str "object"), ("properties", .obj d.properties)] ++
    (if d.required.isEmpty then []
      else [("required", .arr (d.required.reverse.map Json.str))]) ++
    [("additionalProperties", d.additional)])

/-- Adds the property of a field. -/
def addProperty (d : ObjectDraft) (key : FieldKey) (property : Json) : ObjectDraft :=
  let property := describe key.description property
  { d with
    properties := Fields.insert d.properties key.name
      (if key.optional then nullable property else property)
    required := if key.optional then d.required else key.name :: d.required }

end ObjectDraft

mutual

/-- The schema of a shorthand. -/
def expand (resolver : Option (Resolver Json)) : Json → Asking Json
  | .str s => do
      let (type, description) := splitDescription s.toList
      let schema ← (if scalarTypes.contains type then pure (scalarSchema type)
        else named resolver type : Asking Json)
      return describe description schema
  | .obj fs => do return (← expandFields resolver {} fs).schema
  | v => throw (.notShorthand v.kindName)

/-- Reads the fields of an object. -/
def expandFields (resolver : Option (Resolver Json)) (d : ObjectDraft) :
    List (String × Json) → Asking ObjectDraft
  | [] => pure d
  | (k, v) :: rest => do
      if k = wildcard then
        let additional ← expand resolver v
        expandFields resolver { d with additional } rest
      else
        let key := FieldKey.ofText k
        match key.form with
        | .array => do
            let items ← expand resolver v
            let property := Json.obj [("type", .str "array"), ("items", items)]
            expandFields resolver (d.addProperty key property) rest
        | .enumeration =>
            match v with
            | .arr values =>
                expandFields resolver (d.addProperty key (.obj [("enum", .arr values)])) rest
            | v => throw (.enumNotList k v.kindName)
        | .unknown word => throw (.unknownForm word)
        | _ => do
            let property ← expand resolver v
            expandFields resolver (d.addProperty key property) rest

end

/-- A JSON Schema with its type made explicit. -/
def withType (fs : Fields) : Fields :=
  if Fields.contains fs "type" then fs else Fields.insert fs "type" (.str "object")

/-- The JSON Schema of a shorthand. Null stands for none, and a JSON Schema for itself. -/
def ofShorthand (resolver : Option (Resolver Json)) (v : Json) : Asking (Option Json) :=
  match v with
  | .null => pure none
  | .obj fs =>
      if isJsonSchema v then pure (some (.obj (withType fs)))
      else do return some (← expand resolver v)
  | v => do return some (← expand resolver v)

/-- The answer of a conversion, and the names that it asked for, in order. -/
def Asking.result {α : Type} (m : Asking α) : Except SchemaError α × List String :=
  let (answer, asked) := StateT.run (ExceptT.run m) []
  (answer, asked.reverse)

end Promptry.Schema
