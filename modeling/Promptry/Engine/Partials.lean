import Promptry.Engine.Basic
import Promptry.Template.References

/-!
Loading the partials that a template needs, and those that they need. Names are taken in the order
in which they are first referred to; one that is registered is passed over with its references. Each
partial comes from the resolver or else from the store, of which only finitely many can come, so the
search ends. Main statements: `search_nil` and `resolvePartials_of_no_reference`.
-/

namespace Promptry

/-- An answer, the questions asked for it, and the engine behind it. -/
structure Outcome (α : Type) where
  result : Except PromptError α
  engine : Engine
  calls : List Call := []

namespace Engine

/-- The source that the resolver has for a partial; a failure counts as none. -/
def resolvedPartial? (e : Engine) (name : String) : Option String :=
  e.partialResolver.bind fun table => (Table.get? table name).bind (·.found?)

/-- The source that the store has for a partial; a failure counts as none. -/
def storedPartial? (e : Engine) (name : String) : Option String :=
  match e.store with
  | none => none
  | some d =>
    match d.load .part name none with
    | .ok (some p) => some p.source
    | _ => none

def partialSource? (e : Engine) (name : String) : Option String :=
  match e.resolvedPartial? name with
  | some source => some source
  | none => e.storedPartial? name

/-- The partials asked for. -/
def partialCalls (e : Engine) (name : String) : List Call :=
  if e.partialResolver.isSome then [.partialSource name] else []

/-- A number that no more partials can be supplied than. -/
def supplyBound (e : Engine) : Nat :=
  (match e.partialResolver with
    | some table => table.length
    | none => 0) +
  (match e.store with
    | some d => d.tree.fileCount
    | none => 0)

/-- Loads the partials of a queue and those that they refer to. `left` more can be supplied, and the
names in `visited` were taken before. -/
def search (left : Nat) (visited queue : List String) (e : Engine) (calls : List Call) :
    Outcome Unit :=
  match queue with
  | [] => ⟨.ok (), e, calls⟩
  | name :: queue =>
    if visited.contains name || e.hasPartial name then search left visited queue e calls
    else
      let calls := calls ++ e.partialCalls name
      match e.partialSource? name with
      | none =>
        if e.strict then ⟨.error (.partialMissing name), e, calls⟩
        else search left (name :: visited) queue e calls
      | some source =>
        match e.definePartial name source with
        | .error err => ⟨.error err, e, calls⟩
        | .ok e =>
          match left with
          | 0 => ⟨.ok (), e, calls⟩
          | left + 1 =>
            search left (name :: visited) (queue ++ Template.References.ofTemplate source) e calls
termination_by (left, queue.length)

/-- Registers all partials that a template needs. One that cannot be supplied is left out, but an
error if the engine is strict. -/
def resolvePartials (e : Engine) (template : String) : Outcome Unit :=
  search e.supplyBound [] (Template.References.ofTemplate template) e []

theorem search_nil (left : Nat) (visited : List String) (e : Engine) (calls : List Call) :
    search left visited [] e calls = ⟨.ok (), e, calls⟩ := by
  rw [search]

theorem resolvePartials_of_no_reference {e : Engine} {template : String}
    (h : Template.References.ofTemplate template = []) :
    e.resolvePartials template = ⟨.ok (), e, []⟩ := by
  rw [resolvePartials, h, search_nil]

end Engine

end Promptry
