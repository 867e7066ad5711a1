import Promptry.Yaml.Cursor

/-!
Block scalars: the lines below a `|` or a `>` that are indented deeper than what they belong to. A
literal scalar keeps its breaks. A folded one turns a break between two lines into a space, unless
one of them starts with a blank. The header may tell the indentation and what becomes of the breaks
at the end.
-/

namespace Promptry.Yaml

/-- What becomes of the breaks at the end of a block scalar. -/
inductive Chomping where
  | clip
  | strip
  | keep
  deriving DecidableEq

namespace Chomping

def ofChar? : Char → Option Chomping
  | '-' => some strip
  | '+' => some keep
  | _ => none

/-- What is left of the last line's break and the breaks behind it. -/
def ending (ch : Chomping) (last more : List Char) : List Char :=
  match ch with
  | strip => []
  | clip => last
  | keep => last ++ more

end Chomping

/-- The header of a block scalar: the digit of its indentation and its chomping, in either order. -/
structure BlockHeader where
  indent : Option Nat := none
  chomping : Chomping := .clip

namespace BlockHeader

/-- A digit for the indentation. Zero is refused. -/
def digit? (d : Char) : Option Nat := if d == '0' then none else some (d.toNat - 48)

/-- Reads a header to the end of its line, break included. -/
def read? (c : Cursor) : Option (BlockHeader × Cursor) := do
  let (h, n) ← indicators? c.rest
  let c ← (c.advance n).finishLine?
  return (h, c)
where
  /-- The indicators and how many there are. -/
  indicators? : List Char → Option (BlockHeader × Nat)
    | [] => some ({}, 0)
    | d :: r =>
      match Chomping.ofChar? d with
      | some ch =>
        match r with
        | e :: _ =>
          if e.isDigit then (digit? e).map fun n => (⟨some n, ch⟩, 2)
          else some (⟨none, ch⟩, 1)
        | [] => some (⟨none, ch⟩, 1)
      | none =>
        if !d.isDigit then some ({}, 0)
        else
          match digit? d with
          | none => none
          | some n =>
            match r.head?.bind Chomping.ofChar? with
            | some ch => some (⟨some n, ch⟩, 2)
            | none => some (⟨some n, .clip⟩, 1)

end BlockHeader

/-- Reads indentation and empty lines. While the indentation is not known all spaces belong to it.
Gives the deepest column seen, the breaks and the place behind them. A tab in the indentation is
refused. -/
def readEmptyLines (indent : Option Nat) :
    (fuel : List Char) → (deepest : Nat) → (breaks : List Char) → Cursor →
      Option (Nat × List Char × Cursor)
  | [], deepest, breaks, c => some (max deepest c.column, breaks.reverse, c)
  | _ :: fuel, deepest, breaks, c =>
    let inside := match indent with
      | none => true
      | some n => c.column < n
    match c.rest with
    | [] => some (max deepest c.column, breaks.reverse, c)
    | d :: _ =>
      if inside && d == ' ' then readEmptyLines indent fuel deepest breaks c.skip
      else if inside && d == '\t' then none
      else if isBreak d then
        let (b, next) := c.takeBreak
        readEmptyLines indent fuel (max deepest c.column) (b ++ breaks) next
      else some (max deepest c.column, breaks.reverse, c)

/-- What stands before the next line: `last` is the break of the line before, `more` the empty
lines between; `plain` tells that neither line starts with a blank. -/
def blockJoint (literal plain : Bool) (last more : List Char) : List Char :=
  if !literal && plain && last == ['\n'] then (if more.isEmpty then [' '] else more)
  else last ++ more

/-- Reads the lines of a block scalar behind the text in `acc`, last first. -/
def readBlockLines (literal : Bool) (chomping : Chomping) (indent : Nat) :
    (fuel acc : List Char) → (afterBlank : Bool) → (last more : List Char) → Cursor →
      Option (List Char × Cursor)
  | [], acc, _, last, more, c => some (acc.reverse ++ chomping.ending last more, c)
  | _ :: fuel, acc, afterBlank, last, more, c =>
    match c.rest with
    | [] => some (acc.reverse ++ chomping.ending last more, c)
    | d :: _ =>
      if c.column != indent then some (acc.reverse ++ chomping.ending last more, c)
      else
        let joint := blockJoint literal (!afterBlank && !isBlank d) last more
        let (line, c) := c.takeWhile fun e => !isBreak e
        let (last, c) := c.takeBreak
        match readEmptyLines (some indent) c.rest 0 [] c with
        | none => none
        | some (_, more, c) =>
          readBlockLines literal chomping indent fuel (line.reverse ++ (joint.reverse ++ acc))
            (isBlank d) last more c

/-- Reads a block scalar behind its first character. `depth` is the column from which its content
may start. -/
def readBlock (literal : Bool) (depth : Nat) (c : Cursor) : Option (List Char × Cursor) := do
  let (h, c) ← BlockHeader.read? c
  let known := h.indent.map (· + (depth - 1))
  let (deepest, more, c) ← readEmptyLines known c.rest 0 [] c
  let indent := known.getD (max 1 (max deepest depth))
  readBlockLines literal h.chomping indent c.rest [] false [] more c

end Promptry.Yaml
