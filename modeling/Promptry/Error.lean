import Promptry.Prompt.Name
import Promptry.Prompt.Source
import Promptry.Schema.Shorthand
import Promptry.Store.Fault
import Promptry.Template.Render

/-!
Why an operation on prompts fails, and what is said of it.
-/

namespace Promptry

inductive PromptError where
  | source (cause : SourceError)
  | tooLarge (size limit : Nat)
  | badSettings
  | schema (cause : Schema.SchemaError)
  | compile (cause : Template.CompileError)
  | render (cause : Template.RenderError)
  | partialMissing (name : String)
  | toolMissing (name : String)
  | badName (cause : Name.NameError)
  | typed (cause : DecodeError)
  /-- A store's own fault, as the store reports it. -/
  | fault (cause : StoreFault)
  /-- The store of an engine failed. -/
  | store (cause : String)
  deriving Repr

namespace PromptError

def message : PromptError → String
  | source cause => "failed to parse prompt: " ++ cause.message
  | tooLarge size limit => "failed to parse prompt: prompt source too large (" ++ toString size ++
      " bytes). Maximum size is " ++ toString limit ++ " bytes."
  | badSettings => "failed to parse prompt: invalid engine settings"
  | schema cause => "picoschema: " ++ cause.message
  | compile cause => cause.message
  | render cause => cause.message
  | partialMissing name => "could not resolve partial '" ++ name ++ "'"
  | toolMissing name => "could not resolve tool '" ++ name ++ "'"
  | badName cause => "invalid prompt name: " ++ cause.message
  | typed cause => "json: " ++ cause.message
  | fault cause => cause.message
  | store cause => "prompt store: " ++ cause

end PromptError

end Promptry
