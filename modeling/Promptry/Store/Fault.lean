/-!
The faults of a store of prompts, and what is said of them.
-/

namespace Promptry

/-- Why a store fails. Paths are those of the file or directory that was not to be used. -/
inductive StoreFault where
  | noInit (path : String)
  | noListing (path : String)
  | noRead (path : String)
  | noDirectory (path : String)
  | noWrite (path : String)
  | noDelete (name : String)
  | notFound (name : String)
  | badCursor (cursor : String)
  deriving DecidableEq, Repr

def StoreFault.message : StoreFault → String
  | noInit path => "Failed to create prompts directory: " ++ path
  | noListing path => "Failed to read prompts directory: " ++ path
  | noRead path => "Failed to read prompt: " ++ path
  | noDirectory path => "Failed to create directory: " ++ path
  | noWrite path => "Failed to write prompt: " ++ path
  | noDelete name => "Failed to delete prompt: " ++ name
  | notFound name => "Prompt '" ++ name ++ "' not found"
  | badCursor cursor => "Invalid list cursor: '" ++ cursor ++ "'"

end Promptry
