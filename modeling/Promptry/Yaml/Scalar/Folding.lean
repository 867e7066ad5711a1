import Promptry.Yaml.Cursor

/-!
Folding: what stands between two words of a scalar. Blanks inside a line stay; one break becomes a
space, and of several breaks all but the first stay.
-/

namespace Promptry.Yaml

/-- Blanks and breaks between two words. -/
structure Gap where
  /-- Blanks of an unbroken gap, last first. -/
  blanks : List Char := []
  broken : Bool := false
  first : List Char := []
  /-- Breaks behind the first one, last first. -/
  more : List Char := []

namespace Gap

/-- The text that a gap is folded to. -/
def text (g : Gap) : List Char :=
  if g.broken then
    if g.first = ['\n'] then (if g.more.isEmpty then [' '] else g.more.reverse)
    else g.first ++ g.more.reverse
  else g.blanks.reverse

/-- Reads a gap to its end. A tab in front of a column where content must not begin is refused. -/
def read (minColumn : Nat) : (fuel : List Char) → Gap → Cursor → Option (Gap × Cursor)
  | [], g, c => some (g, c)
  | _ :: fuel, g, c =>
    match c.rest with
    | [] => some (g, c)
    | d :: _ =>
      if isBlank d then
        if !g.broken then read minColumn fuel { g with blanks := d :: g.blanks } c.skip
        else if d == '\t' && c.column < minColumn then none
        else read minColumn fuel g c.skip
      else if isBreak d then
        let (b, c) := c.takeBreak
        if g.broken then read minColumn fuel { g with more := b ++ g.more } c
        else read minColumn fuel { broken := true, first := b } c
      else some (g, c)

end Gap

end Promptry.Yaml
