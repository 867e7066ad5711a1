import Promptry.Number.Shortest
import Promptry.Yaml.Value

/-!
Values as YAML text in block style, two columns for each level. A sequence stands in the column of
its key. A text that would be read as something else stands between quotes, one with line feeds is a
literal block; a key that is long, or not empty and a collection, has a mark of its own.
-/

namespace Promptry.Yaml.Printer

/-! ### Scalars -/

/-- The characters that are written as they are. -/
def isPrintable (c : Char) : Bool :=
  let n := c.toNat
  n == 0xA || (0x20 ≤ n && n ≤ 0x7E) || (0xA0 ≤ n && n ≤ 0xD7FF) ||
    (0xE000 ≤ n && n ≤ 0xFFFD && n != 0xFEFF)

/-- The characters with which no plain scalar starts. -/
def isLeadIndicator (c : Char) : Bool :=
  ['#', ',', '[', ']', '\x7b', '\x7d', '&', '*', '!', '|', '>', '\'', '"', '%', '@',
    '\x60'].contains c

/-- Whether a colon stands before a blank or at the end. -/
def hasColonMark : List Char → Bool
  | [] => false
  | c :: r => (c == ':' && atWordEnd r) || hasColonMark r

/-- Whether a text begins with what only a mark may begin with. -/
def startsWithMark : List Char → Bool
  | [] => false
  | c :: r => isLeadIndicator c || ((c == '?' || c == '-') && atWordEnd r)

/-- Whether a text begins with three dashes or dots. -/
def startsWithRule : List Char → Bool
  | '-' :: '-' :: '-' :: _ => true
  | '.' :: '.' :: '.' :: _ => true
  | _ => false

def isSpaceOrBreak (c : Char) : Bool := c == ' ' || isBreak c

/-- Whether blanks or breaks stand at an end of the text. -/
def hasLooseEnd (cs : List Char) : Bool :=
  cs.head?.any isSpaceOrBreak || cs.getLast?.any isSpaceOrBreak

/-- Whether two neighbours satisfy `p` and `q`. -/
def hasPair (p q : Char → Bool) : List Char → Bool
  | a :: b :: r => (p a && q b) || hasPair p q (b :: r)
  | _ => false

/-- Whether a text can stand without quotes. -/
def allowsPlain (cs : List Char) : Bool :=
  cs.all (fun c => isPrintable c && !isBreak c) && !startsWithRule cs && !startsWithMark cs &&
    !hasColonMark cs && !hasPair (fun c => isBlank c || isBreak c) (· == '#') cs &&
    !hasLooseEnd cs

/-- Whether a text can stand between single quotes. -/
def allowsSingle (cs : List Char) : Bool :=
  cs.all isPrintable && !hasPair (· == ' ') isBreak cs && !hasPair isBreak (· == ' ') cs

/-- Whether a text can be a literal block. -/
def allowsLiteral (cs : List Char) : Bool :=
  cs.all isPrintable && !hasPair (· == ' ') isBreak cs && cs.getLast? != some ' '

def singleQuoted (cs : List Char) : List Char :=
  cs.flatMap fun c => if c = '\'' then ['\'', '\''] else [c]

/-- Hexadecimal digits in upper case, `n` of them. -/
def hexDigits (n v : Nat) : List Char :=
  (List.range n).map fun i => (Nat.digitChar (v / Nat.pow 16 (n - 1 - i) % 16)).toUpper

/-- A character between double quotes. -/
def doubleQuotedChar (c : Char) : List Char :=
  let n := c.toNat
  if c == '"' || c == '\\' then ['\\', c]
  else if isPrintable c && !isBreak c then [c]
  else
    match [(0, '0'), (7, 'a'), (8, 'b'), (9, 't'), (10, 'n'), (11, 'v'), (12, 'f'), (13, 'r'),
        (0x1B, 'e'), (0x85, 'N'), (0xA0, '_'), (0x2028, 'L'), (0x2029, 'P')].lookup n with
    | some e => ['\\', e]
    | none =>
      if n ≤ 0xFF then '\\' :: 'x' :: hexDigits 2 n
      else if n ≤ 0xFFFF then '\\' :: 'u' :: hexDigits 4 n
      else '\\' :: 'U' :: hexDigits 8 n

def doubleQuoted (cs : List Char) : List Char := '"' :: cs.flatMap doubleQuotedChar ++ ['"']

/-- Whether a text would be read as something else if it had no quotes. -/
def isAmbiguous (s : String) : Bool :=
  Scalar.resolve s != some (.text s) || Scalar.isZeroLed s.toList

/-- A text on one line. -/
def textInline (s : String) : List Char :=
  let cs := s.toList
  if s.contains '\n' then doubleQuoted cs
  else if !isAmbiguous s && allowsPlain cs then cs
  else if allowsSingle cs && !cs.any isBreak then '\'' :: singleQuoted cs ++ ['\'']
  else doubleQuoted cs

def floatText (d : Double) : List Char :=
  if d.isNaN then ['.', 'n', 'a', 'n']
  else if d.isFinite then Number.Layout.yaml.double d
  else if d.negative then ['-', '.', 'i', 'n', 'f']
  else ['.', 'i', 'n', 'f']

/-- A scalar on one line. -/
def scalarInline : Scalar → List Char
  | .null => ['n', 'u', 'l', 'l']
  | .bool true => ['t', 'r', 'u', 'e']
  | .bool false => ['f', 'a', 'l', 's', 'e']
  | .int i => Number.intText i
  | .float d => floatText d
  | .text s => textInline s

/-! ### Collections -/

def newLine (indent : Nat) : List Char := '\n' :: List.replicate indent ' '

/-- The lines of a text, each under the indentation; an empty one has none. -/
def literalLines (indent : Nat) : (atStart : Bool) → List Char → List Char
  | _, [] => []
  | atStart, c :: r =>
      if c == '\n' then '\n' :: literalLines indent true r
      else if atStart then List.replicate indent ' ' ++ c :: literalLines indent false r
      else c :: literalLines indent false r

/-- How the header of a literal block tells what stands at the ends of the text. -/
def literalHeader (cs : List Char) : List Char :=
  let lead := if cs.head?.any isSpaceOrBreak then ['2'] else []
  let tail :=
    if cs.getLast? != some '\n' then ['-']
    else if cs.length = 1 || (cs.dropLast.getLast?.any isBreak) then ['+'] else []
  '|' :: lead ++ tail

/-- A text as a literal block under an indentation, if it is one and can be. -/
def literal? (indent : Nat) (s : String) : Option (List Char) :=
  let cs := s.toList
  if s.contains '\n' && allowsLiteral cs then
    some (literalHeader cs ++ '\n' :: literalLines indent true cs)
  else none

/-- The text of a tag. -/
def tagText (name : String) : List Char :=
  '!' :: name.toList.flatMap fun c =>
    if isTagChar true c && c != '!' && c != '%' then [c]
    else (String.singleton c).toUTF8.toList.flatMap fun b => '%' :: hexDigits 2 b.toNat

/-- A value that takes one line wherever it stands. -/
def inline? : Value → Option (List Char)
  | .scalar (.text s) =>
      if s.contains '\n' && allowsLiteral s.toList then none else some (textInline s)
  | .scalar s => some (scalarInline s)
  | .sequence [] => some ['[', ']']
  | .mapping [] => some ['\x7b', '\x7d']
  | .tagged name v => (inline? v).map fun t => tagText name ++ ' ' :: t
  | _ => none

/-- A key without a mark: a scalar on one line or an empty collection, and not too long. -/
def simpleKey? : Value → Option (List Char)
  | .scalar (.text s) =>
      if s.toList.any isBreak || 128 < s.utf8ByteSize then none else some (textInline s)
  | .tagged name (.scalar (.text s)) =>
      if s.toList.any isBreak || 128 < s.utf8ByteSize + name.utf8ByteSize + 1 then none
      else some (tagText name ++ ' ' :: textInline s)
  | v => inline? v

/-- Where a value stands: at the start, behind the dash of an item, behind the mark of a key or of
its value, or behind a key without a mark. -/
inductive Place where
  | start
  | item
  | marked
  | keyed
  deriving DecidableEq

/-- The column of a collection in a place, where `indent` is the column around it. -/
def Place.column (p : Place) (isSequence tagged : Bool) (indent : Nat) : Nat :=
  match p with
  | .start => 0
  | .item => indent + 2
  | .marked => if isSequence && tagged then indent else indent + 2
  | .keyed => if isSequence then indent else indent + 2

/-- What stands before a value on the same line. -/
def Place.blank (p : Place) : List Char := if p = .start then [] else [' ']

/-- A tag, if there is one, and a blank before what follows on the line. -/
def Place.tagged (p : Place) : (tag : Option String) → List Char
  | some name => p.blank ++ tagText name ++ [' ']
  | none => p.blank

/-- What stands before a collection. Behind a dash or a mark it begins on the same line. -/
def Place.opening (p : Place) (tag : Option String) (column : Nat) : List Char :=
  match tag with
  | some name => p.blank ++ tagText name ++ newLine column
  | none => if p = .keyed then newLine column else p.blank

/-- A key and the mark of its value. -/
def keyText (column : Nat) (simple : Option (List Char)) (marked : Unit → List Char) : List Char :=
  match simple with
  | some t => t ++ [':']
  | none => '?' :: marked () ++ newLine column ++ [':']

mutual

/-- A value in a place, with what parts it from what stands before. -/
def value (indent : Nat) (p : Place) (tag : Option String) : Value → List Char
  | .tagged name v => value indent p (some name) v
  | .sequence [] => p.tagged tag ++ ['[', ']']
  | .sequence xs =>
      let column := p.column true tag.isSome indent
      p.opening tag column ++ items column [] xs
  | .mapping [] => p.tagged tag ++ ['\x7b', '\x7d']
  | .mapping es =>
      let column := p.column false tag.isSome indent
      p.opening tag column ++ entries column [] es
  | .scalar (.text s) =>
      let column := if p = .start then 2 else indent + 2
      p.tagged tag ++ (literal? column s).getD (textInline s)
  | .scalar s => p.tagged tag ++ scalarInline s

/-- The items of a sequence, `lead` before the first one. -/
def items (column : Nat) (lead : List Char) : List Value → List Char
  | [] => []
  | x :: xs => lead ++ '-' :: value column .item none x ++ items column (newLine column) xs

/-- The entries of a mapping, `lead` before the first one. -/
def entries (column : Nat) (lead : List Char) : List (Value × Value) → List Char
  | [] => []
  | (k, v) :: es =>
      let simple := simpleKey? k
      lead ++ keyText column simple (fun _ => value column .marked none k) ++
        value column (if simple.isSome then .keyed else .marked) none v ++
        entries column (newLine column) es

end

end Promptry.Yaml.Printer

namespace Promptry.Yaml

/-- The text of a value, without a break at the end. -/
def Value.text (v : Value) : String := String.ofList (Printer.value 0 .start none v)

end Promptry.Yaml
