import Promptry.Yaml.Scalar.Folding

/-!
Plain scalars: words without quotes, folded. A word ends at a blank, before a colon that a blank
follows and, in flow collections, at their indicators. Main statement: `plainWord?_append`, that the
word and the rest make up the text.
-/

namespace Promptry.Yaml

/-- The word at the head of a text and the rest; `acc` holds what was read, last first. A colon
before a flow indicator is refused in flow collections. -/
def plainWord? (inFlow : Bool) (acc : List Char) : List Char → Option (List Char × List Char)
  | [] => some (acc.reverse, [])
  | d :: r =>
      if isBlank d || isBreak d then some (acc.reverse, d :: r)
      else if inFlow && d == ':' && r.head?.any (fun e => isFlowIndicator e || e == '?') then none
      else if (d == ':' && atWordEnd r) || (inFlow && isFlowIndicator d) then
        some (acc.reverse, d :: r)
      else plainWord? inFlow (d :: acc) r

theorem plainWord?_append {inFlow : Bool} {acc cs w r : List Char}
    (h : plainWord? inFlow acc cs = some (w, r)) : w ++ r = acc.reverse ++ cs := by
  induction cs generalizing acc with
  | nil => cases h; rfl
  | cons d cs ih =>
    unfold plainWord? at h
    split at h
    · cases h; rfl
    · split at h
      · cases h
      · split at h
        · cases h; rfl
        · rw [ih h]; simp

/-- A plain scalar that was read: its text, the place behind it, and whether a break was passed
behind its last word. -/
structure PlainScalar where
  text : List Char
  behind : Cursor
  broken : Bool

/-- Reads on behind the words in `acc`, last first, and a gap. Lines of the block context that
start before `minColumn` end the scalar. -/
def readPlain (inFlow : Bool) (minColumn : Nat) :
    (fuel acc : List Char) → Gap → Cursor → Option PlainScalar
  | [], acc, g, c => some ⟨acc.reverse, c, g.broken⟩
  | _ :: fuel, acc, g, c =>
    if (c.column == 0 && startsDocumentMark c.rest) || c.rest.head? == some '#' then
      some ⟨acc.reverse, c, g.broken⟩
    else
      match plainWord? inFlow [] c.rest with
      | none => none
      | some ([], _) => some ⟨acc.reverse, c, g.broken⟩
      | some (word, _) =>
        let acc := word.reverse ++ (g.text.reverse ++ acc)
        let c := c.advance word.length
        if !c.rest.isEmpty && atWordEnd c.rest then
          match Gap.read minColumn c.rest {} c with
          | none => none
          | some (g, c) =>
            if !inFlow && c.column < minColumn then some ⟨acc.reverse, c, g.broken⟩
            else readPlain inFlow minColumn fuel acc g c
        else some ⟨acc.reverse, c, false⟩

end Promptry.Yaml
