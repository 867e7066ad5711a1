import Promptry.Text.Hex
import Promptry.Yaml.Cursor
import Promptry.Yaml.Token.Basic

/-!
Tags and directives. A tag is a handle, such as `!` or `!!`, and a suffix, in which octets may be
escaped by a percent sign; or it stands between angle brackets and has no handle.
-/

namespace Promptry.Yaml

/-- A text whose octets behind percent signs are taken apart from the characters. -/
def splitOctets : List Char → Option (List (Char ⊕ Nat))
  | [] => some []
  | '%' :: a :: b :: r =>
      match Text.hexDigit? a, Text.hexDigit? b with
      | some h, some l => (splitOctets r).map (.inr (h * 16 + l) :: ·)
      | _, _ => none
  | c :: r => if c == '%' then none else (splitOctets r).map (.inl c :: ·)

/-- Joins octets to characters; `pending` of them are missing to the character that has `value` so
far. A value that is no character becomes the replacement character. -/
def joinOctets (pending value : Nat) : List (Char ⊕ Nat) → Option (List Char)
  | [] => if pending = 0 then some [] else none
  | .inl c :: r => if pending = 0 then (joinOctets 0 0 r).map (c :: ·) else none
  | .inr b :: r =>
      if pending = 0 then
        if b < 0x80 then (joinOctets 0 0 r).map (Char.ofNat b :: ·)
        else if b / 32 = 6 then joinOctets 1 (b % 32) r
        else if b / 16 = 14 then joinOctets 2 (b % 16) r
        else if b / 8 = 30 then joinOctets 3 (b % 8) r
        else none
      else if b / 64 ≠ 2 then none
      else
        let value := value * 64 + b % 64
        if pending = 1 then
          let d := if value.isValidChar then Char.ofNat value else '\ufffd'
          (joinOctets 0 0 r).map (d :: ·)
        else joinOctets (pending - 1) value r

def unescapeTag (cs : List Char) : Option (List Char) := (splitOctets cs).bind (joinOctets 0 0)

/-- The characters of a tag here, unescaped, and the place behind them. -/
def readTagText (verbatim : Bool) (c : Cursor) : Option (List Char × Cursor) := do
  let (raw, c) := c.takeWhile (isTagChar verbatim)
  return (← unescapeTag raw, c)

/-- The handle here: an exclamation mark, a name, and another mark if one follows. -/
def readHandle (c : Cursor) : Option (List Char × Cursor) :=
  match c.rest with
  | '!' :: _ =>
    let (name, c) := c.skip.takeWhile isNameChar
    match c.rest with
    | '!' :: _ => some ('!' :: name ++ ['!'], c.skip)
    | _ => some ('!' :: name, c)
  | _ => none

/-- Reads a tag. A lone exclamation mark is a tag of its own without a handle. -/
def readTag (c : Cursor) : Option (Token × Cursor) :=
  match c.rest with
  | '!' :: '<' :: _ => do
    let (text, c) ← readTagText true (c.advance 2)
    match c.rest with
    | '>' :: _ => if text.isEmpty then none else some (.tag [] text, c.skip)
    | _ => none
  | _ => do
    let (handle, c) ← readHandle c
    let (text, c) ← readTagText false c
    if 1 < handle.length && handle.getLast? == some '!' then
      if text.isEmpty then none else some (.tag handle text, c)
    else
      match handle.tail ++ text with
      | [] => some (.tag [] ['!'], c)
      | suffix => some (.tag ['!'] suffix, c)

/-- A number of at most nine digits. -/
def readVersionNumber (c : Cursor) : Option (Nat × Cursor) :=
  let (ds, c) := c.takeWhile Char.isDigit
  if ds.isEmpty || 9 < ds.length then none
  else some (ds.foldl (fun n d => n * 10 + (d.toNat - 48)) 0, c)

/-- Reads a directive behind its percent sign, to the end of its line. -/
def readDirective (c : Cursor) : Option (Token × Cursor) := do
  let (name, c) := c.takeWhile isNameChar
  if !atWordEnd c.rest then none
  else
    let c := c.skipWhile isBlank
    let (token, c) ←
      if name = ['Y', 'A', 'M', 'L'] then do
        let (major, c) ← readVersionNumber c
        match c.rest with
        | '.' :: _ => do
          let (minor, c) ← readVersionNumber c.skip
          some (Token.version major minor, c)
        | _ => none
      else if name = ['T', 'A', 'G'] then do
        let (handle, c) ← readHandle c
        if handle ≠ ['!'] && handle.getLast? != some '!' then none
        else if c.rest.isEmpty || !c.rest.head?.any isBlank then none
        else
          let (meaning, c) ← readTagText true (c.skipWhile isBlank)
          if meaning.isEmpty || !atWordEnd c.rest then none
          else some (Token.tagPrefix handle meaning, c)
      else none
    return (token, ← c.finishLine?)

end Promptry.Yaml
