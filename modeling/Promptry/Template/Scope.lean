import Promptry.Template.Tree
import Promptry.Text.Numeral
import Promptry.Json.Printer

/-!
What names mean while a template is rendered. Blocks open scopes, each with a value, names for
things inside it, and loop variables; a path is looked up in the scopes, the innermost first. What
is missing is null, but a key that is no index has no meaning in an array.
-/

namespace Promptry.Template

/-- Why rendering fails. -/
inductive RenderError where
  | partialNotFound (name : String)
  | partialBlockNotFound
  | helperNotFound (name : String)
  | decoratorNotFound (name : String)
  | missingParam (helper : String) (index : Nat)
  | missingNamedParam (helper name : String)
  | notText (helper : String) (index : Nat)
  | wrongParamType (expected : String)
  | bodyRequired
  | selfInclusion
  | unknownLogLevel (level : String)
  | notAnIndex (key : String)
  | urlRequired
  | doesNotCompile (e : CompileError)
  | nestedTooDeep
  deriving DecidableEq, Repr

def RenderError.message : RenderError → String
  | partialNotFound name => "Partial not found " ++ name
  | partialBlockNotFound => "Partial block cound not be found"
  | helperNotFound name => "Helper not found " ++ name
  | decoratorNotFound name => "Decorator not found " ++ name
  | missingParam helper index =>
      "Helper/Decorator " ++ helper ++ " param at index " ++ toString index ++
        " required but not found"
  | missingNamedParam helper name =>
      "Helper/Decorator " ++ helper ++ " param with name " ++ name ++ " required but not found"
  | notText helper index => helper ++ ": parameter " ++ toString index ++ " must be a string"
  | wrongParamType expected => "Invalid param type, " ++ expected ++ " expected"
  | bodyRequired => "Block content required"
  | selfInclusion => "Can not include current template in partial"
  | unknownLogLevel level => "Invalid logging level: " ++ level
  | notAnIndex key => "Cannot access array/vector with string index, " ++ key
  | urlRequired => "media: a url is required"
  | doesNotCompile e => "Failed to parse template: " ++ e.message
  | nestedTooDeep => "partials are nested too deep"

/-- What a block makes visible. -/
structure Scope where
  value : Json
  /-- Names that the block gives to things. -/
  names : List (String × Json) := []
  /-- Loop variables. -/
  locals : List (String × Json) := []

namespace Scope

/-- The value of a name that some block gave. -/
def name? (scopes : List Scope) (key : String) : Option Json :=
  match scopes with
  | [] => none
  | s :: outer =>
      match Fields.get? s.names key with
      | some v => some v
      | none => name? outer key

/-- The current value. -/
def current (root : Json) (scopes : List Scope) : Json :=
  match scopes with
  | s :: _ => s.value
  | [] => root

/-- The value `ups` scopes out; the current one if there are not so many. -/
def valueAt (root : Json) (scopes : List Scope) (ups : Nat) : Json :=
  match scopes[ups]? with
  | some s => s.value
  | none => current root scopes

/-- The loop variable `ups` scopes out. -/
def localAt (scopes : List Scope) (ups : Nat) (key : String) : Json :=
  match scopes[ups]? with
  | some s => (Fields.get? s.locals key).getD .null
  | none => .null

end Scope

/-- The member of a value under a key. -/
def member (v : Json) (key : String) : Except RenderError Json :=
  match v with
  | .obj fs => .ok ((Fields.get? fs key).getD .null)
  | .arr items =>
      match Numeral.ofText? key with
      | some i => .ok (items[i]?.getD .null)
      | none => .error (.notAnIndex key)
  | _ => .ok .null

/-- Follows the keys of a path. -/
def follow (v : Json) : List Step → Except RenderError Json
  | [] => .ok v
  | .key k :: rest =>
      match member v k with
      | .ok w => follow w rest
      | .error e => .error e
  | _ :: rest => follow v rest

namespace Path

/-- The value of a path that does not start at a loop variable. -/
def lookUp (root : Json) (scopes : List Scope) (steps : List Step) : Except RenderError Json :=
  match steps with
  | .root :: rest => follow root rest
  | _ =>
    let ups := (steps.takeWhile (· == .up)).length
    match steps.dropWhile (· == .up) with
    | .key k :: rest =>
      match Scope.name? scopes k with
      | some v => follow v rest
      | none => follow (Scope.valueAt root scopes ups) (.key k :: rest)
    | rest => follow (Scope.valueAt root scopes ups) rest

def value (root : Json) (scopes : List Scope) (p : Path) : Except RenderError Json :=
  match p.loopVariable? with
  | some (ups, key) => .ok (Scope.localAt scopes ups key)
  | none => lookUp root scopes p.steps

end Path

mutual

/-- How a value is shown: objects not at all, arrays item by item. -/
def shown : Json → List Char
  | .null => []
  | .bool true => ['t', 'r', 'u', 'e']
  | .bool false => ['f', 'a', 'l', 's', 'e']
  | .num n => n.text
  | .str s => s.toList
  | .arr [] => ['[', ']']
  | .arr (x :: xs) => '[' :: shown x ++ shownItems xs ++ [']']
  | .obj _ => "[object]".toList

def shownItems : List Json → List Char
  | [] => []
  | x :: xs => ',' :: ' ' :: shown x ++ shownItems xs

end

/-- Whether a value counts as true: a number if it is neither zero nor, as a floating-point number,
too small for a full mantissa; with `includeZero` any number does. -/
def truthy (includeZero : Bool) : Json → Bool
  | .null => false
  | .bool b => b
  | .num n => includeZero || n.toDouble.isNormal
  | .str s => !s.isEmpty
  | .arr items => !items.isEmpty
  | .obj fs => !fs.isEmpty

end Promptry.Template
