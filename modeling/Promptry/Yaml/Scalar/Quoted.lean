import Promptry.Text.Hex
import Promptry.Yaml.Scalar.Folding

/-!
Quoted scalars, folded like plain ones. Between single quotes a quote is written twice; between
double quotes a backslash starts an escape, and one before a break joins two lines. A document mark
inside is refused.
-/

namespace Promptry.Yaml

/-- The character of an escape of one letter. -/
def escapedChar? : Char → Option Char
  | '0' => some '\x00'
  | 'a' => some '\x07'
  | 'b' => some '\x08'
  | 't' => some '\t'
  | '\t' => some '\t'
  | 'n' => some '\n'
  | 'v' => some '\x0b'
  | 'f' => some '\x0c'
  | 'r' => some '\r'
  | 'e' => some '\x1b'
  | ' ' => some ' '
  | '"' => some '"'
  | '/' => some '/'
  | '\\' => some '\\'
  | 'N' => some '\u0085'
  | '_' => some '\u00a0'
  | 'L' => some '\u2028'
  | 'P' => some '\u2029'
  | _ => none

/-- The number of digits of a numeric escape. -/
def escapeDigits? : Char → Option Nat
  | 'x' => some 2
  | 'u' => some 4
  | 'U' => some 8
  | _ => none

/-- The character of a numeric escape. -/
def codePoint? (ds : List Char) (n : Nat) : Option Char :=
  if ds.length ≠ n then none
  else match Text.hexValue? ds with
    | some v => if v.isValidChar then some (Char.ofNat v) else none
    | none => none

/-- An escape behind its backslash: its character, and how many characters it takes. -/
def escape? : List Char → Option (Char × Nat)
  | [] => none
  | e :: r =>
    match escapedChar? e with
    | some d => some (d, 1)
    | none =>
      match escapeDigits? e with
      | some n => (codePoint? (r.take n) n).map (·, n + 1)
      | none => none

/-- Reads the rest of a quoted scalar behind the text in `acc`, last first: its text and the place
behind the closing quote. -/
def readQuoted (single : Bool) : (fuel acc : List Char) → Cursor → Option (List Char × Cursor)
  | [], _, _ => none
  | _ :: fuel, acc, c =>
    if c.column == 0 && startsDocumentMark c.rest then none
    else
      match c.rest with
      | [] => none
      | d :: r =>
        if isBlank d || isBreak d then
          match Gap.read 0 c.rest {} c with
          | none => none
          | some (g, c) => readQuoted single fuel (g.text.reverse ++ acc) c
        else if single then
          if d != '\'' then readQuoted single fuel (d :: acc) c.skip
          else if r.head? == some '\'' then readQuoted single fuel ('\'' :: acc) (c.advance 2)
          else some (acc.reverse, c.skip)
        else if d == '"' then some (acc.reverse, c.skip)
        else if d != '\\' then readQuoted single fuel (d :: acc) c.skip
        else if !r.isEmpty && atLineEnd r then
          match Gap.read 0 r { broken := true } c.skip.takeBreak.2 with
          | none => none
          | some (g, c) => readQuoted single fuel (g.text.reverse ++ acc) c
        else
          match escape? r with
          | none => none
          | some (e, n) => readQuoted single fuel (e :: acc) (c.advance (n + 1))

end Promptry.Yaml
