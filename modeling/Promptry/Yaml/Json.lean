import Promptry.Json.Basic
import Promptry.Text.Blank
import Promptry.Yaml.Printer

/-!
YAML values as JSON. Local tags are dropped, numbers that are not finite become null, and keys
become texts: a key that is no scalar becomes its YAML text.
-/

namespace Promptry.Yaml.Value

/-- A key as a text. -/
def keyText (v : Value) : String :=
  match v with
  | .scalar (.text s) => s
  | .scalar s => String.ofList (Printer.scalarInline s)
  | v => String.ofList (Text.trimEnd v.text.toList)

def scalarJson : Scalar → Json
  | .null => .null
  | .bool b => .bool b
  | .int i => .ofInt i
  | .float d => if d.isFinite then .num (.float d) else .null
  | .text s => .str s

mutual

def toJson : Value → Json
  | .scalar s => scalarJson s
  | .sequence items => .arr (itemsJson items)
  | .mapping es => .obj (Fields.ofEntries (entriesJson es))
  | .tagged _ v => v.toJson

def itemsJson : List Value → List Json
  | [] => []
  | v :: vs => v.toJson :: itemsJson vs

def entriesJson : List (Value × Value) → List (String × Json)
  | [] => []
  | (k, v) :: es => (k.keyText, v.toJson) :: entriesJson es

end

end Promptry.Yaml.Value
