import Promptry.Template.Piece

/-!
The partials that a template refers to, found in its text: two opening braces, a tilde and a number
sign if need be, a `>` and a name. Main statement: `distinct_nodup`.
-/

namespace Promptry.Template.References

/-- The characters of the names looked for. -/
def isNameChar (c : Char) : Bool := c.isAlphanum || c == '_' || c == '/' || c == '-'

def dropOne (c : Char) (cs : List Char) : List Char :=
  match cs with
  | d :: r => if d == c then r else cs
  | [] => []

/-- The name that a reference at the head of a text has, and the rest. -/
def name? (cs : List Char) : Option (String × List Char) :=
  if opensTag cs then
    match dropOne '#' (dropOne '~' (cs.drop 2)) with
    | '>' :: r =>
      let r := Text.trimStart r
      let name := r.takeWhile isNameChar
      if name.isEmpty then none else some (String.ofList name, r.dropWhile isNameChar)
    | _ => none
  else none

/-- The names of all references, behind those in `acc`, last first. `fuel` is a text at least as
long as the one that is read. -/
def namesFrom (fuel : List Char) (acc : List String) (cs : List Char) : List String :=
  match fuel, cs with
  | _ :: fuel, _ :: r =>
      match name? cs with
      | some (name, rest) => namesFrom fuel (name :: acc) rest
      | none => namesFrom fuel acc r
  | _, _ => acc.reverse

/-- The items of a list, each where it first appears. -/
def distinct (seen : List String) : List String → List String
  | [] => []
  | x :: xs => if seen.contains x then distinct seen xs else x :: distinct (x :: seen) xs

theorem not_mem_distinct {seen xs : List String} {x : String} (h : x ∈ seen) :
    x ∉ distinct seen xs := by
  induction xs generalizing seen with
  | nil => simp [distinct]
  | cons y ys ih =>
    unfold distinct
    split
    · exact ih h
    · next hy =>
      simp only [List.mem_cons, not_or]
      refine ⟨fun he => hy (by simpa [← he] using h), ih (List.mem_cons_of_mem _ h)⟩

theorem distinct_nodup (seen xs : List String) : (distinct seen xs).Nodup := by
  induction xs generalizing seen with
  | nil => exact List.nodup_nil
  | cons y ys ih =>
    unfold distinct
    split
    · exact ih seen
    · exact List.nodup_cons.2 ⟨not_mem_distinct List.mem_cons_self, ih _⟩

/-- The names of the partials that a template refers to, in the order of their first references. -/
def ofTemplate (template : String) : List String :=
  let cs := template.toList
  distinct [] (namesFrom cs [] cs)

end Promptry.Template.References
