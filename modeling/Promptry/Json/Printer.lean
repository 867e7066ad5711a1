import Promptry.Json.Basic
import Promptry.Number.Shortest

/-!
JSON text: compact, or with every item on a line of its own under an indentation.
-/

namespace Promptry.Json

open Promptry.Number

/-- Two hexadecimal digits in lower case. -/
def hexByte (n : Nat) : List Char :=
  [Nat.digitChar (n / 16 % 16), Nat.digitChar (n % 16)]

/-- One character inside a string: quote, backslash and controls are escaped. -/
def escapedChar (c : Char) : List Char :=
  if c = '"' then ['\\', '"']
  else if c = '\\' then ['\\', '\\']
  else if c = '\n' then ['\\', 'n']
  else if c = '\r' then ['\\', 'r']
  else if c = '\t' then ['\\', 't']
  else if c.toNat = 8 then ['\\', 'b']
  else if c.toNat = 12 then ['\\', 'f']
  else if c.toNat < 0x20 then ['\\', 'u', '0', '0'] ++ hexByte c.toNat
  else [c]

def escaped (cs : List Char) : List Char := cs.flatMap escapedChar

def stringText (s : String) : List Char := '"' :: escaped s.toList ++ ['"']

def Number.text : Number → List Char
  | .int i => intText i
  | .float d => Layout.json.double d

mutual

/-- The text without any blanks. -/
def compact : Json → List Char
  | .null => ['n', 'u', 'l', 'l']
  | .bool true => ['t', 'r', 'u', 'e']
  | .bool false => ['f', 'a', 'l', 's', 'e']
  | .num n => n.text
  | .str s => stringText s
  | .arr [] => ['[', ']']
  | .arr (x :: xs) => '[' :: compact x ++ compactItems xs ++ [']']
  | .obj [] => ['\x7b', '\x7d']
  | .obj ((k, v) :: fs) =>
      '\x7b' :: stringText k ++ ':' :: compact v ++ compactFields fs ++ ['\x7d']

def compactItems : List Json → List Char
  | [] => []
  | x :: xs => ',' :: compact x ++ compactItems xs

def compactFields : List (String × Json) → List Char
  | [] => []
  | (k, v) :: fs => ',' :: stringText k ++ ':' :: compact v ++ compactFields fs

end

/-- The break before an item at a nesting depth. -/
def lineBreak (width depth : Nat) : List Char := '\n' :: List.replicate (width * depth) ' '

mutual

/-- The text with one item a line, each level indented by `width` spaces. -/
def indented (width depth : Nat) : Json → List Char
  | .arr (x :: xs) =>
      '[' :: lineBreak width (depth + 1) ++ indented width (depth + 1) x ++
        indentedItems width (depth + 1) xs ++ lineBreak width depth ++ [']']
  | .obj ((k, v) :: fs) =>
      '\x7b' :: lineBreak width (depth + 1) ++ stringText k ++ ':' :: ' ' ::
        indented width (depth + 1) v ++ indentedFields width (depth + 1) fs ++
        lineBreak width depth ++ ['\x7d']
  | v => compact v

def indentedItems (width depth : Nat) : List Json → List Char
  | [] => []
  | x :: xs =>
      ',' :: lineBreak width depth ++ indented width depth x ++ indentedItems width depth xs

def indentedFields (width depth : Nat) : List (String × Json) → List Char
  | [] => []
  | (k, v) :: fs =>
      ',' :: lineBreak width depth ++ stringText k ++ ':' :: ' ' :: indented width depth v ++
        indentedFields width depth fs

end

/-- The compact text as a string. -/
def text (j : Json) : String := String.ofList j.compact

/-- The text under an indentation; none means compact. -/
def textIndented (width : Nat) (j : Json) : String :=
  if width = 0 then j.text else String.ofList (j.indented width 0)

end Promptry.Json
