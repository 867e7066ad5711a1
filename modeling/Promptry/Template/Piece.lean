import Promptry.Template.Tag
import Promptry.Text.Blank

/-!
Templates as texts and tags in turn. A backslash in front of two braces makes text of them; of
several backslashes there one is dropped, and the tag stays a tag. Four braces open a block whose
inside is text up to the next four. `placed` then settles the blanks:
a tilde drops all blanks on its side, and a tag that stands alone on its line takes the indentation
and the break of the line away. Main statement: `opensTag_iff`.
-/

namespace Promptry.Template

/-- A stretch of text, its escapes resolved, or a tag. -/
inductive Piece where
  | text (cs : List Char)
  | tag (t : Tag)
  deriving Repr

/-! ### Splitting -/

/-- Whether two opening braces stand at the head. -/
def opensTag (cs : List Char) : Bool :=
  match cs with
  | '\x7b' :: '\x7b' :: _ => true
  | _ => false

theorem opensTag_iff (cs : List Char) : opensTag cs = true ↔ ∃ r, cs = '\x7b' :: '\x7b' :: r := by
  constructor
  · intro h
    unfold opensTag at h
    split at h
    · exact ⟨_, rfl⟩
    · exact absurd h (by simp)
  · rintro ⟨r, rfl⟩
    rfl

/-- Whether four opening braces stand at the head. -/
def opensRaw (cs : List Char) : Bool := opensTag cs && opensTag (cs.drop 2)

/-- The text up to the place where `stop` holds and the rest; `acc` holds what was read before, last
first. Such a place starts with two opening braces. `fuel` is a text at least as long as the one
that is read. -/
def readText (stop : List Char → Bool) (fuel acc cs : List Char) : List Char × List Char :=
  match fuel, cs with
  | _ :: fuel, '\\' :: r =>
      let more := r.takeWhile (· == '\\')
      let rest := r.dropWhile (· == '\\')
      if opensTag rest && more.isEmpty then
        -- a third brace belongs to the escape too
        match rest.drop 2 with
        | '\x7b' :: rest => readText stop fuel ('\x7b' :: '\x7b' :: '\x7b' :: acc) rest
        | rest => readText stop fuel ('\x7b' :: '\x7b' :: acc) rest
      else if opensTag rest then readText stop fuel (more ++ acc) rest
      else readText stop fuel ('\\' :: (more ++ acc)) rest
  | _ :: fuel, c :: r => if stop cs then (acc.reverse, cs) else readText stop fuel (c :: acc) r
  | _, _ => (acc.reverse, cs)

/-- A block whose inside is text: its opening tag, the text and its closing tag. -/
def rawBlock? : Reader (List Piece) := fun cs => do
  let (opening, r) ← rawOpenTag? cs
  let (body, r) := readText opensRaw r [] r
  let (closing, r) ← rawCloseTag? r
  some ((if body.isEmpty then [.tag opening, .tag closing]
    else [.tag opening, .text body, .tag closing]), r)

/-- The pieces of a text, behind those in `acc`, last first; none if a tag is malformed. `fuel` is
a text at least as long as the one that is read. -/
def piecesFrom (fuel : List Char) (acc : List Piece) (cs : List Char) : Option (List Piece) :=
  match fuel, cs with
  | _, [] => some acc.reverse
  | [], _ => none
  | _ :: fuel, cs =>
    if opensTag cs then
      match readTag? cs with
      | some (t, rest) => piecesFrom fuel (.tag t :: acc) rest
      | none =>
        match rawBlock? cs with
        | some (block, rest) => piecesFrom fuel (block.reverse ++ acc) rest
        | none => none
    else
      let (text, rest) := readText opensTag cs [] cs
      piecesFrom fuel (.text text :: acc) rest

def pieces? (cs : List Char) : Option (List Piece) := piecesFrom cs [] cs

/-! ### Blanks and lines -/

def isIndent (c : Char) : Bool := c == ' ' || c == '\t'

/-- Drops one line break. -/
def dropBreak (cs : List Char) : List Char :=
  match cs with
  | '\r' :: '\n' :: r => r
  | '\n' :: r => r
  | _ => cs

/-- Drops the blanks behind a tag that stands alone on its line, with the line break. -/
def dropLineEnd (cs : List Char) : List Char := dropBreak (cs.dropWhile isIndent)

/-- Drops indentation at the end. -/
def dropIndent (cs : List Char) : List Char := (cs.reverse.dropWhile isIndent).reverse

/-- The indentation at the end. -/
def trailingIndent (cs : List Char) : List Char := (cs.reverse.takeWhile isIndent).reverse

/-- Whether nothing but indentation stands before the first line break. -/
def startsWithLineEnd (cs : List Char) : Bool :=
  match cs.dropWhile isIndent with
  | c :: _ => c == '\n' || c == '\r'
  | [] => false

/-- Whether nothing but indentation stands behind the last line break; `first` tells that the text
starts the template. -/
def endsWithLineStart (first : Bool) (cs : List Char) : Bool :=
  match cs.reverse.dropWhile isIndent with
  | c :: _ => c == '\n' || c == '\r'
  | [] => first

/-- What a tag needs to know of the line it stands on. -/
structure Line where
  /-- It stands alone on its line, and what it writes starts the line anew. -/
  fresh : Bool := false
  /-- The blanks before it on its line. -/
  indent : List Char := []
  deriving Repr

/-- A text as it will be written, or the content of a tag with its line. -/
inductive Part where
  | text (cs : List Char)
  | tag (content : Content) (line : Line)
  deriving Repr

namespace Content

/-- Tags that show a value never stand alone. -/
def showsValue : Content → Bool
  | .value _ => true
  | .call _ => true
  | _ => false

end Content

/-- Where the placing of a template has got to. -/
structure Placing where
  /-- The parts so far, last first. -/
  parts : List Part := []
  /-- The text right before the next piece, as the template has it. -/
  before : List Char := []
  /-- No tag has come yet. -/
  first : Bool := true
  trims : Bool := false
  dropsLineEnd : Bool := false

namespace Placing

/-- A text behind a tag that holds nothing but gaps is dropped by a tilde. -/
def text (s : Placing) (cs : List Char) : Placing :=
  if !s.first && cs.all isGap && s.trims then { s with before := cs }
  else
    let out := if s.trims then Text.trimStart cs
      else if s.dropsLineEnd then dropLineEnd cs
      else cs
    { s with parts := .text out :: s.parts, before := cs, dropsLineEnd := false }

/-- Changes the text right before the next piece. -/
def mapLast (f : List Char → List Char) (parts : List Part) : List Part :=
  match parts with
  | .text cs :: rest => .text (f cs) :: rest
  | _ => parts

/-- Places a tag; `next` is the text right behind it, if there is one, and `closed` tells that the
end of the template counts as the end of a line. -/
def tag (closed : Bool) (s : Placing) (t : Tag) (next : Option (List Char)) (last : Bool) :
    Placing :=
  let parts := if t.trimsBefore then mapLast Text.trimEnd s.parts else s.parts
  let trims := match t.content with
    | .comment => s.trims
    | _ => t.trimsAfter
  if t.content.showsValue then
    { s with parts := .tag t.content {} :: parts, before := [], first := false, trims }
  else
    let lineEnds := (match next with
      | some cs => startsWithLineEnd cs
      | none => false) || (closed && last)
    let lineStarts := endsWithLineStart s.first s.before
    let alone := lineEnds && lineStarts
    let parts := if alone then mapLast dropIndent parts else parts
    let line : Line := ⟨alone && !t.trimsBefore,
      if t.trimsBefore then [] else trailingIndent s.before⟩
    ⟨.tag t.content line :: parts, [], false, trims, alone⟩

/-- Places all pieces. -/
def run (closed : Bool) (s : Placing) : List Piece → List Part
  | [] => s.parts.reverse
  | .text cs :: rest => run closed (s.text cs) rest
  | .tag t :: rest =>
      let next := match rest with
        | .text cs :: _ => some cs
        | _ => none
      run closed (s.tag closed t next rest.isEmpty) rest

end Placing

/-- The parts of a template with its blanks settled. -/
def placed (closed : Bool) (pieces : List Piece) : List Part := Placing.run closed {} pieces

end Promptry.Template
