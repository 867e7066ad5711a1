import Promptry.Template.Scope
import Promptry.Marker.ContentType
import Promptry.Text.Upper

/-!
Helpers, the functions that a template may call by name. A helper gets the values of its arguments
and answers with a value to be shown, or with text to be written as it is and the branches of its
block to be rendered, each in a scope of its own if it opens one.
-/

namespace Promptry.Template

/-- What a helper is called with. -/
structure Call where
  params : List Json := []
  named : Fields := []
  /-- Names that the block gives to things. -/
  blockParams : List String := []
  /-- The value of the innermost scope. -/
  current : Json := .null
  /-- There is a branch for the case that the block is not taken. -/
  hasInverse : Bool := false

inductive Branch where
  | body
  | inverse
  deriving DecidableEq, Repr

/-- A branch to be rendered, in a scope of its own or the one around it. -/
structure Run where
  branch : Branch
  scope : Option Scope := none

inductive Answer where
  | value (v : Json)
  | written (text : String) (runs : List Run)

abbrev Helper := Call → Except RenderError Answer

namespace Helper

/-- The parameter at a place, without which a helper cannot do. -/
def param (helper : String) (c : Call) (index : Nat) : Except RenderError Json :=
  match c.params[index]? with
  | some v => .ok v
  | none => .error (.missingParam helper index)

/-- The text at a place. -/
def textParam (helper : String) (c : Call) (index : Nat) : Except RenderError String :=
  match c.params[index]? with
  | some (.str s) => .ok s
  | some _ => .error (.notText helper index)
  | none => .error (.missingParam helper index)

/-- The first parameter of a condition with a name. -/
def namedParam (helper name : String) (c : Call) (index : Nat) : Except RenderError Json :=
  match c.params[index]? with
  | some v => .ok v
  | none => .error (.missingNamedParam helper name)

/-- Renders one branch in the scope around it. -/
def branch (b : Branch) : Answer := .written "" [⟨b, none⟩]

/-! ### Blocks -/

/-- `if`, and `unless` with `positive` unset. -/
def ifHelper (positive : Bool) : Helper := fun c => do
  let v ← param "if" c 0
  let includeZero := match Fields.get? c.named "includeZero" with
    | some (.bool b) => b
    | _ => false
  return branch (if truthy includeZero v == positive then .body else .inverse)

/-- The names of an item of a loop. -/
def itemNames (blockParams : List String) (v key : Json) : List (String × Json) :=
  match blockParams with
  | [a] => [(a, v)]
  | a :: b :: _ => [(a, v), (b, key)]
  | [] => []

/-- The runs for the items of an array, from the `index`-th on, of `count`. -/
def itemRuns (c : Call) (count index : Nat) : List Json → List Run
  | [] => []
  | v :: rest =>
      let position := Json.ofNat index
      ⟨.body, some ⟨v, itemNames c.blockParams v position,
        [("first", .bool (index == 0)), ("last", .bool (index + 1 == count)),
          ("index", position)]⟩⟩ :: itemRuns c count (index + 1) rest

/-- The runs for the fields of an object, from the `index`-th on, of `count`. -/
def fieldRuns (c : Call) (count index : Nat) : List (String × Json) → List Run
  | [] => []
  | (k, v) :: rest =>
      ⟨.body, some ⟨v, itemNames c.blockParams v (.str k),
        [("first", .bool (index == 0)), ("last", .bool (index + 1 == count)),
          ("index", Json.ofNat index), ("key", .str k)]⟩⟩ :: fieldRuns c count (index + 1) rest

/-- Renders its body for every item of an array or field of an object. -/
def eachHelper : Helper := fun c => do
  match ← param "each" c 0 with
  | .arr (v :: vs) => return .written "" (itemRuns c (vs.length + 1) 0 (v :: vs))
  | .obj (f :: fs) => return .written "" (fieldRuns c (fs.length + 1) 0 (f :: fs))
  | _ => return branch .inverse

/-- Renders its body with a value as the current one. -/
def withHelper : Helper := fun c => do
  let v ← param "with" c 0
  if truthy false v then
    let names := match c.blockParams with
      | [a] => [(a, v)]
      | _ => []
    return .written "" [⟨.body, some ⟨v, names, []⟩⟩]
  else return branch .inverse

def rawHelper : Helper := fun _ => .ok (branch .body)

/-- Equality of numbers: by value, exactly if both fit into 63 bits and a sign. -/
def numbersEqual (a b : Json.Number) : Bool :=
  match a, b with
  | .int i, .int j =>
      if fits i && fits j then i == j else (Double.ofInt i).same (Double.ofInt j)
  | _, _ => a.toDouble.same b.toDouble
where
  fits (i : Int) : Bool := -(Nat.pow 2 63 : Int) ≤ i && i < (Nat.pow 2 63 : Int)

/-- Equality of values, of their kinds first; numbers are equal by value. -/
def valuesEqual : Json → Json → Bool
  | .num a, .num b => numbersEqual a b
  | a, b => a.same b

/-- Whether the first two parameters are equal, if there are two. -/
def comparison? (c : Call) : Option Bool :=
  match c.params with
  | a :: b :: _ => some (valuesEqual a b)
  | _ => none

def ifEqualsHelper : Helper := fun c =>
  .ok (branch (if comparison? c = some true then .body else .inverse))

def unlessEqualsHelper : Helper := fun c =>
  .ok (branch (if comparison? c = some false then .body else .inverse))

/-! ### Markers -/

/-- Starts the part of another role; its body follows. -/
def roleHelper : Helper := fun c => do
  return .written (Marker.roleText (← textParam "role" c 0)) [⟨.body, none⟩]

def historyHelper : Helper := fun _ => .ok (.written Marker.history.text [])

def sectionHelper : Helper := fun c => do
  return .written (Marker.pendingSection (← textParam "section" c 0)).text []

/-- A named parameter, or else the one at a place, if it is a text with something in it. -/
def filledText? (c : Call) (name : String) (index : Nat) : Option String :=
  match (Fields.get? c.named name).orElse fun _ => c.params[index]? with
  | some (.str s) => if s.isEmpty then none else some s
  | _ => none

/-- Refers to a medium by its address; its content type may be told by the address. -/
def mediaHelper : Helper := fun c =>
  match filledText? c "url" 0 with
  | none => .error .urlRequired
  | some url =>
    let type := (filledText? c "contentType" 1).orElse fun _ => ContentType.ofUrl? url
    .ok (.written (Marker.media url type).text [])

/-! ### Values -/

/-- The width that an indentation asks for. -/
def indentWidth : Json → Nat
  | .num (.int i) => i.toNat
  | .str s => (Numeral.ofText? (Text.trimText s)).getD 0
  | _ => 0

/-- Writes a value, or else the current one, as JSON. -/
def jsonHelper : Helper := fun c =>
  let width := match Fields.get? c.named "indent" with
    | some v => indentWidth v
    | none => 0
  .ok (.written (Json.textIndented width (c.params.headD c.current)) [])

/-- The item of an array at an index, or the field of an object. -/
def lookupHelper : Helper := fun c => do
  let collection ← param "lookup" c 0
  let index ← param "lookup" c 1
  return .value (match collection, index with
    | .arr items, .num (.int i) => if i < 0 then .null else items[i.toNat]?.getD .null
    | .obj fs, .str k => (Fields.get? fs k).getD .null
    | _, _ => .null)

/-- A condition on two values. -/
def binary (name : String) (f : Json → Json → Bool) : Helper := fun c => do
  let x ← namedParam name "x" c 0
  let y ← namedParam name "y" c 1
  return .value (.bool (f x y))

/-- The number that a text stands for, also an infinity or a NaN. -/
def numberOf? (s : String) : Option Double :=
  let (neg, cs) := match s.toList with
    | '+' :: r => (false, r)
    | '-' :: r => (true, r)
    | r => (false, r)
  let word := String.ofList (cs.map Char.toLower)
  if word = "inf" || word = "infinity" then some (.infinity neg)
  else if word = "nan" then some .nan
  else
    let whole := cs.takeWhile Char.isDigit
    let rest := cs.dropWhile Char.isDigit
    let (fraction, rest) := match rest with
      | '.' :: r => (r.takeWhile Char.isDigit, r.dropWhile Char.isDigit)
      | r => ([], r)
    let exponent : Option Int := match rest with
      | [] => some 0
      | e :: r =>
        if e == 'e' || e == 'E' then
          let (negative, ds) := match r with
            | '+' :: r => (false, r)
            | '-' :: r => (true, r)
            | r => (false, r)
          if ds.isEmpty || !ds.all Char.isDigit then none
          else some (if negative then -(Numeral.value ds : Int) else Numeral.value ds)
        else none
    if whole.isEmpty && fraction.isEmpty then none
    else exponent.map fun e =>
      .ofDecimal neg (Numeral.value (whole ++ fraction)) (e - fraction.length)

/-- The order of two values that can be compared: numbers, texts, booleans, and a number with a
text that stands for one. -/
def order? : Json → Json → Option Ordering
  | .num a, .num b => a.compare? b
  | .str a, .str b => some (compare a b)
  | .bool a, .bool b => some (compare a b)
  | .num a, .str b => (numberOf? b).bind (a.toDouble.compare? ·)
  | .str a, .num b => (numberOf? a).bind (·.compare? b.toDouble)
  | _, _ => none

def notHelper : Helper := fun c => do
  return .value (.bool (!truthy false (← namedParam "not" "x" c 0)))

/-- The number of items or fields, or of the bytes of a text. -/
def lenHelper : Helper := fun c => do
  return .value (Json.ofNat (match ← namedParam "len" "x" c 0 with
    | .arr items => items.length
    | .obj fs => fs.length
    | .str s => s.utf8ByteSize
    | _ => 0))

/-- Writes nothing; its level must be one that logs know. -/
def logHelper : Helper := fun c =>
  let level := match Fields.get? c.named "level" with
    | some (.str s) => s
    | _ => "info"
  if ["error", "warn", "info", "debug", "trace"].contains
      (String.ofList (level.toList.map Char.toLower))
  then .ok (.written "" [])
  else .error (.unknownLogLevel level)

/-! ### Helpers of a caller -/

/-- Writes a fixed text. -/
def constant (text : String) : Helper := fun _ => .ok (.written text [])

/-- Writes its first parameter in upper case, if that is a text. -/
def shout : Helper := fun c =>
  .ok (.written (match c.params with
    | .str s :: _ => Text.toUpper s
    | _ => "") [])

end Helper

/-- The helpers that every template knows. -/
def builtinHelpers : List (String × Helper) :=
  [("if", Helper.ifHelper true), ("unless", Helper.ifHelper false), ("each", Helper.eachHelper),
    ("with", Helper.withHelper), ("lookup", Helper.lookupHelper), ("raw", Helper.rawHelper),
    ("log", Helper.logHelper),
    ("eq", Helper.binary "eq" Json.same),
    ("ne", Helper.binary "ne" fun x y => !x.same y),
    ("gt", Helper.binary "gt" fun x y => Helper.order? x y == some .gt),
    ("gte", Helper.binary "gte" fun x y =>
      Helper.order? x y == some .gt || Helper.order? x y == some .eq),
    ("lt", Helper.binary "lt" fun x y => Helper.order? x y == some .lt),
    ("lte", Helper.binary "lte" fun x y =>
      Helper.order? x y == some .lt || Helper.order? x y == some .eq),
    ("and", Helper.binary "and" fun x y => truthy false x && truthy false y),
    ("or", Helper.binary "or" fun x y => truthy false x || truthy false y),
    ("not", Helper.notHelper), ("len", Helper.lenHelper),
    ("role", Helper.roleHelper), ("history", Helper.historyHelper),
    ("section", Helper.sectionHelper), ("media", Helper.mediaHelper),
    ("json", Helper.jsonHelper), ("ifEquals", Helper.ifEqualsHelper),
    ("unlessEquals", Helper.unlessEqualsHelper)]

end Promptry.Template
