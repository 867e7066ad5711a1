import Promptry.Template.Scope

/-!
Data variables, the `@name` references of a template. Some belong to the template language itself;
every other one is found in the context object that each render keeps under a reserved key of its
root, so it is redirected there before a template is compiled. Redirecting works on the text: it
looks for tags, two opening braces up to the next closing ones with no closing brace between, and
leaves quoted literals in them alone.
-/

namespace Promptry.Template.DataVariables

/-- The key of the context object in the root that templates are rendered against. -/
def contextKey : String := "__dotprompt_ctx"

/-- The data variables of the template language itself. -/
def ownVariables : List String :=
  ["root", "index", "key", "first", "last", "level", "partial-block"]

def isNameStart (c : Char) : Bool := c.isAlpha || c == '_'

def isNameChar (c : Char) : Bool := c.isAlphanum || c == '_' || c == '-'

/-- What is put between the at sign of a reference and its name. -/
def redirection : List Char := ("root." ++ contextKey ++ ".").toList

/-- The inside of a literal quoted with `q`, its closing quote included, and the rest; `acc` holds
what was read before, last first. -/
def quoted? (q : Char) (acc : List Char) : List Char → Option (List Char × List Char)
  | [] => none
  | '\\' :: c :: cs => if c == '\n' then none else quoted? q (c :: '\\' :: acc) cs
  | c :: cs =>
      if c == q then some ((q :: acc).reverse, cs)
      else if c == '\\' then none
      else quoted? q (c :: acc) cs

/-- A quoted literal at the head of a text. -/
def literal? (cs : List Char) : Option (List Char × List Char) :=
  match cs with
  | '"' :: r => quoted? '"' ['"'] r
  | '\'' :: r => quoted? '\'' ['\''] r
  | _ => none

/-- What stands between the at sign and the name of a reference. -/
def redirect (name : List Char) : List Char :=
  if ownVariables.contains (String.ofList name) then [] else redirection

/-- Redirects the references in a tag. `acc` holds what was written before, last first; `fuel` is a
text at least as long as the one that is read. -/
def redirectTag (fuel acc cs : List Char) : List Char :=
  match fuel, cs with
  | _ :: fuel, c :: r =>
      match literal? cs with
      | some (written, rest) => redirectTag fuel (written.reverse ++ acc) rest
      | none =>
        match c, r with
        | '@', d :: _ =>
          if isNameStart d then
            let name := r.takeWhile isNameChar
            redirectTag fuel (name.reverse ++ (redirect name).reverse ++ '@' :: acc)
              (r.dropWhile isNameChar)
          else redirectTag fuel (c :: acc) r
        | _, _ => redirectTag fuel (c :: acc) r
  | _, _ => acc.reverse

/-- The tag at the head of a text, and the rest. -/
def tag? (cs : List Char) : Option (List Char × List Char) :=
  if opensTag cs then
    let inside := cs.drop 2
    match inside.dropWhile (· != '\x7d') with
    | '\x7d' :: '\x7d' :: rest =>
        some ('\x7b' :: '\x7b' :: inside.takeWhile (· != '\x7d') ++ ['\x7d', '\x7d'], rest)
    | _ => none
  else none

/-- Redirects the references in all tags. -/
def redirectFrom (fuel acc cs : List Char) : List Char :=
  match fuel, cs with
  | _ :: fuel, c :: r =>
      match tag? cs with
      | some (tag, rest) => redirectFrom fuel ((redirectTag tag [] tag).reverse ++ acc) rest
      | none => redirectFrom fuel (c :: acc) r
  | _, _ => acc.reverse

/-- A template with its references redirected. -/
def redirectAll (template : String) : String :=
  let cs := template.toList
  String.ofList (redirectFrom cs [] cs)

end Promptry.Template.DataVariables
