/-!
What a caller's look-up answers for a name: the thing asked for, nothing, or a failure with its
cause.
-/

namespace Promptry

inductive Lookup (α : Type) where
  | found (value : α)
  | missing
  | failed (cause : String)
  deriving Repr

namespace Lookup

/-- The thing found; a failure counts as nothing. -/
def found? {α : Type} : Lookup α → Option α
  | found v => some v
  | _ => none

end Lookup

/-- A look-up by name. -/
abbrev Resolver (α : Type) := String → Lookup α

end Promptry
