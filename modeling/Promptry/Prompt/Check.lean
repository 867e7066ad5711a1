import Promptry.Error

/-!
Checking the source of a prompt as a whole: its size, its settings, and that its template compiles,
in this order.
-/

namespace Promptry

/-- The greatest size of a source in bytes. -/
def maxSourceSize : Nat := 1000000

def checkTemplate (template : String) : Except PromptError Unit :=
  match Template.compile false template with
  | .ok _ => .ok ()
  | .error e => .error (.compile e)

/-- Reads a source if it is sound. -/
def checkSource (source : String) : Except PromptError ParsedPrompt :=
  if maxSourceSize < source.utf8ByteSize then
    .error (.tooLarge source.utf8ByteSize maxSourceSize)
  else do
    let prompt ← (ParsedPrompt.ofSource source).mapError .source
    checkTemplate prompt.template
    return prompt

end Promptry
