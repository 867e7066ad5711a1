import Promptry.Yaml.Alphabet

/-!
A place in YAML text: what follows, and the line, column and index of the next character.
-/

namespace Promptry.Yaml

structure Cursor where
  rest : List Char
  line : Nat := 0
  column : Nat := 0
  index : Nat := 0

namespace Cursor

/-- Behind `n` characters of this line. -/
def advance (n : Nat) (c : Cursor) : Cursor :=
  { c with rest := c.rest.drop n, column := c.column + n, index := c.index + n }

/-- Behind the next character of this line. -/
def skip (c : Cursor) : Cursor := c.advance 1

/-- The characters of this line that satisfy `p`, and the place behind them. -/
def takeWhile (p : Char → Bool) (c : Cursor) : List Char × Cursor :=
  let word := c.rest.takeWhile p
  (word, c.advance word.length)

def skipWhile (p : Char → Bool) (c : Cursor) : Cursor := (c.takeWhile p).2

/-- Behind a break that takes `n` characters. -/
def nextLine (n : Nat) (c : Cursor) : Cursor :=
  ⟨c.rest.drop n, c.line + 1, 0, c.index + n⟩

/-- The text of the break here, and the place behind it. A carriage return and a line feed are one
break; separators keep their text. -/
def takeBreak (c : Cursor) : List Char × Cursor :=
  match c.rest with
  | '\r' :: '\n' :: _ => (['\n'], c.nextLine 2)
  | d :: _ => if isPlainBreak d then (['\n'], c.nextLine 1)
      else if isBreak d then ([d], c.nextLine 1)
      else ([], c)
  | [] => ([], c)

/-- Behind the comment here, if one starts. -/
def skipComment (c : Cursor) : Cursor :=
  match c.rest with
  | '#' :: _ => c.skipWhile fun d => !isBreak d
  | _ => c

/-- Behind the rest of a line that may hold a comment only, break included. -/
def finishLine? (c : Cursor) : Option Cursor :=
  let c := (c.skipWhile isBlank).skipComment
  if atLineEnd c.rest then some c.takeBreak.2 else none

end Cursor

end Promptry.Yaml
