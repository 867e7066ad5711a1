/-!
The characters of YAML text: those that may stand in it at all, breaks between lines, blanks inside
them, and the characters of names and tags.
-/

namespace Promptry.Yaml

/-- The characters that may stand in YAML text. -/
def isAllowed (c : Char) : Bool :=
  let n := c.toNat
  n == 9 || n == 0xA || n == 0xD || (0x20 ≤ n && n ≤ 0x7E) || n == 0x85 ||
    (0xA0 ≤ n && n ≤ 0xD7FF) || (0xE000 ≤ n && n ≤ 0xFFFD) || 0x10000 ≤ n

/-- The breaks that count as a line feed: line feed, carriage return, next line. -/
def isPlainBreak (c : Char) : Bool := c == '\n' || c == '\r' || c.toNat == 0x85

/-- All breaks: also the line and the paragraph separator. -/
def isBreak (c : Char) : Bool := isPlainBreak c || c.toNat == 0x2028 || c.toNat == 0x2029

def isBlank (c : Char) : Bool := c == ' ' || c == '\t'

/-- Whether a line ends here. -/
def atLineEnd : List Char → Bool
  | [] => true
  | c :: _ => isBreak c

/-- Whether a word ends here. -/
def atWordEnd : List Char → Bool
  | [] => true
  | c :: _ => isBlank c || isBreak c

/-- The characters of anchors, handles and directives. -/
def isNameChar (c : Char) : Bool := c.isAlphanum || c == '_' || c == '-'

/-- The characters of the rest of a tag; `verbatim` tags may hold some brackets. -/
def isTagChar (verbatim : Bool) (c : Char) : Bool :=
  isNameChar c ||
    [';', '/', '?', ':', '@', '&', '=', '+', '$', '.', '%', '!', '~', '*', '\'', '(',
      ')'].contains c
    || (verbatim && [',', '[', ']'].contains c)

/-- The characters that part the items of a flow collection. -/
def isFlowIndicator (c : Char) : Bool := [',', '[', ']', '\x7b', '\x7d'].contains c

/-- Whether a line starts with `---` or `...` and nothing that goes on with it. -/
def startsDocumentMark : List Char → Bool
  | a :: b :: c :: rest =>
      ((a == '-' && b == '-' && c == '-') || (a == '.' && b == '.' && c == '.')) && atWordEnd rest
  | _ => false

end Promptry.Yaml
