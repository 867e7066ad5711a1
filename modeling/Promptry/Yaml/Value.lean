import Promptry.Yaml.Node
import Promptry.Yaml.Scalar.Core

/-!
Nodes as values. Aliases are replaced by what they stand for, a local tag stays with its value, and
a mapping with two equal keys is refused. Collections nest at most 128 deep, and the aliases
followed are at most a hundred times the events of the text.
-/

namespace Promptry.Yaml

inductive Value where
  | scalar (s : Scalar)
  | sequence (items : List Value)
  | mapping (entries : List (Value × Value))
  | tagged (tag : String) (v : Value)
  deriving Repr, Inhabited

namespace Value

/-! ### Equality -/

/-- Equality of scalars: a number that is none equals itself, and both zeros are equal. -/
def sameScalar : Scalar → Scalar → Bool
  | .float a, .float b => (a.isNaN && b.isNaN) || a.same b
  | a, b => a == b

mutual

/-- Equality of values, mappings without regard to the order of their entries. -/
def same : Value → Value → Bool
  | .scalar a, .scalar b => sameScalar a b
  | .sequence as, .sequence bs => sameItems as bs
  | .mapping as, .mapping bs => as.length == bs.length && sameEntries as bs
  | .tagged s a, .tagged t b => s == t && a.same b
  | _, _ => false

def sameItems : List Value → List Value → Bool
  | [], [] => true
  | a :: as, b :: bs => a.same b && sameItems as bs
  | _, _ => false

/-- Whether every entry has an equal one among `others`. -/
def sameEntries : List (Value × Value) → List (Value × Value) → Bool
  | [], _ => true
  | (k, a) :: as, others => others.any (fun e => k.same e.1 && a.same e.2) && sameEntries as others

end

/-! ### Reading -/

/-- Aliases that may still be followed, and failure. -/
abbrev Following := StateT Nat Option

/-- The node that an alias stands for, or the node itself. -/
def follow (d : Document) (n : Node) : Following Node := do
  match n with
  | .aliasOf target =>
    match ← get with
    | 0 => failure
    | left + 1 =>
      set left
      match d.node? target with
      | some n => return n
      | none => failure
  | n => return n

/-- A value with the local tag of its node. -/
def withTag (tag : Option String) (v : Value) : Following Value :=
  match localTag? tag with
  | none => return v
  | some "" => failure
  | some name => return .tagged name v

/-- Adds an entry to those of a mapping, last first. -/
def add (entries : List (Value × Value)) (k v : Value) : Option (List (Value × Value)) :=
  if entries.any fun e => k.same e.1 then none else some ((k, v) :: entries)

/-- The value of a node that may hold `depth` levels of collections. -/
def ofNode (d : Document) (depth : Nat) (n : Node) : Following Value := do
  match ← follow d n with
  | .aliasOf _ => failure
  | .scalar tag style text =>
    match localTag? tag with
    | some _ => withTag tag (.scalar (← Scalar.ofStyle style text))
    | none => return .scalar (← Scalar.read? tag style text)
  | .sequence tag items =>
    match depth with
    | 0 => failure
    | depth + 1 => withTag tag (.sequence (← items.mapM fun n => ofNode d depth n))
  | .mapping tag entries =>
    match depth with
    | 0 => failure
    | depth + 1 =>
      let es ← entries.foldlM (fun es (e : Node × Node) => do
        let k ← ofNode d depth e.1
        let v ← ofNode d depth e.2
        add es k v) []
      withTag tag (.mapping es.reverse)

/-- The value of a text. Without a document it is null. -/
def ofDocument? (d : Document) : Option Value :=
  match d.root with
  | none => some (.scalar .null)
  | some n => (ofNode d 128 n).run' (100 * d.size)

def ofText? (s : String) : Option Value := (Document.ofText? s.toList).bind ofDocument?

end Value

end Promptry.Yaml
