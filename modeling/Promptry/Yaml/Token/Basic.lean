/-!
The tokens of YAML text. Block collections are opened and closed by tokens of their own, which stand
for changes of the indentation, and a key has a token before it even if no mark was written.
-/

namespace Promptry.Yaml

/-- How a scalar was written. -/
inductive ScalarStyle where
  | plain
  | quoted
  | literal
  | folded
  deriving DecidableEq, Repr

inductive Token where
  | version (major minor : Nat)
  /-- A handle for tags and what it stands for. -/
  | tagPrefix (handle meaning : List Char)
  | documentStart
  | documentEnd
  | blockSequence
  | blockMapping
  | blockEnd
  | flowSequence
  | flowSequenceEnd
  | flowMapping
  | flowMappingEnd
  | blockEntry
  | flowEntry
  | key
  | value
  | anchor (name : List Char)
  | aliasOf (name : List Char)
  | tag (handle suffix : List Char)
  | scalar (style : ScalarStyle) (text : List Char)
  deriving DecidableEq, Repr

end Promptry.Yaml
