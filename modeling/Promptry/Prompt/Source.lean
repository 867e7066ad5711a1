import Promptry.Prompt.Config
import Promptry.Yaml.Json

/-!
The source of a prompt: a template, and before it, if the first line is a fence, settings in YAML up
to a second fence. A fence is a line of three dashes and blanks behind them. Main statements:
`lines_flatten`, that cutting a text into lines loses nothing, and `cut_of_not_fence`.
-/

namespace Promptry

/-- Why a source cannot be read. -/
inductive SourceError where
  | neverClosed
  | notYaml
  | notMapping (kind : String)
  | badMetadata (cause : DecodeError)
  deriving Repr

def SourceError.message : SourceError → String
  | neverClosed => "frontmatter opened with '---' but never closed"
  | notYaml => "invalid YAML frontmatter"
  | notMapping kind => "frontmatter must be a mapping, got " ++ kind
  | badMetadata cause => "invalid frontmatter: " ++ cause.message

namespace Source

/-- The lines of a text, each with its line feed; the line begun and the lines before come last
first. -/
def linesFrom (line : List Char) (before : List (List Char)) : List Char → List (List Char)
  | [] => (if line.isEmpty then before else line.reverse :: before).reverse
  | c :: r =>
      if c == '\n' then linesFrom [] ((c :: line).reverse :: before) r
      else linesFrom (c :: line) before r

/-- The lines of a text, each with its line feed if it has one. -/
def lines (cs : List Char) : List (List Char) := linesFrom [] [] cs

theorem linesFrom_flatten (line : List Char) (before : List (List Char)) (cs : List Char) :
    (linesFrom line before cs).flatten = before.reverse.flatten ++ line.reverse ++ cs := by
  induction cs generalizing line before with
  | nil =>
    cases line with
    | nil => simp [linesFrom]
    | cons c r => simp [linesFrom]
  | cons c r ih =>
    by_cases h : c = '\n'
    · simp [linesFrom, h, ih]
    · simp [linesFrom, h, ih]

/-- Cutting a text into lines loses nothing. -/
theorem lines_flatten (cs : List Char) : (lines cs).flatten = cs := by
  simp [lines, linesFrom_flatten]

/-- Three dashes, and nothing behind them but blanks. -/
def isFence (line : List Char) : Bool := Text.trimEnd line == ['-', '-', '-']

/-- The text between the fences, if there are any, and the template. -/
structure Parts where
  head : Option (List Char)
  template : List Char

/-- Cuts a source at its fences. -/
def cut (cs : List Char) : Except SourceError Parts :=
  match lines cs with
  | [] => .ok ⟨none, cs⟩
  | first :: body =>
    if !isFence first then .ok ⟨none, cs⟩
    else
      match body.span fun l => !isFence l with
      | (_, []) => .error .neverClosed
      | (head, _ :: template) => .ok ⟨some head.flatten, template.flatten⟩

theorem cut_of_not_fence {cs first : List Char} {body : List (List Char)}
    (h : lines cs = first :: body) (hf : isFence first = false) : cut cs = .ok ⟨none, cs⟩ := by
  simp [cut, h, hf]

/-- The settings that a head holds; a blank one holds none. -/
def settings (head : List Char) : Except SourceError Fields :=
  if Text.isBlankText head then .ok []
  else
    match (Yaml.Document.ofText? head).bind Yaml.Value.ofDocument? with
    | none => .error .notYaml
    | some v =>
      match v.toJson with
      | .obj fs => .ok fs
      | .null => .ok []
      | j => .error (.notMapping j.kindName)

/-- The template of a source and its settings. -/
def split (source : String) : Except SourceError (String × Fields) := do
  let parts ← cut source.toList
  let config ← match parts.head with
    | some head => settings head
    | none => .ok []
  return (String.ofList parts.template, config)

end Source

namespace Metadata

/-- The metadata that settings stand for. -/
def ofSettings (config : Fields) : Except SourceError Metadata :=
  match ofConfig config with
  | .ok m => .ok m
  | .error e => .error (.badMetadata e)

end Metadata

namespace ParsedPrompt

/-- Reads a source. -/
def ofSource (source : String) : Except SourceError ParsedPrompt := do
  let (template, config) ← Source.split source
  return ⟨← Metadata.ofSettings config, template⟩

end ParsedPrompt

end Promptry
