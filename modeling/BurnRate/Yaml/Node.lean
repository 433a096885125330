/-!
Nodes of a YAML document as they are written, with tags and aliases.

Anchors are numbered: a name gets the number of names before it, also where it is set
again. A number stands for the node that was anchored with it last.
-/

namespace BurnRate.Yaml

inductive Node where
  /-- `plain` texts may stand for other values. -/
  | scalar (tag? : Option String) (plain : Bool) (text : String)
  | sequence (tag? : Option String) (items : List Node)
  | mapping (tag? : Option String) (fields : List (Node × Node))
  | alias (anchor : Nat)
  deriving Repr

/-- A node that was anchored: the number of its anchor, and where it starts. -/
structure Anchored where
  number : Nat
  start : Nat
  node : Node
  deriving Repr

/-- One document. -/
structure Document where
  root : Node
  anchored : List Anchored
  /-- Number of scalars, aliases, and starts and ends of collections. -/
  size : Nat
  deriving Repr

namespace Document

/-- The node that an anchor stands for. -/
def target? (d : Document) (number : Nat) : Option Node :=
  let candidates := d.anchored.filter (·.number == number)
  let last? := candidates.foldl (fun best? a =>
    match best? with
    | none => some a
    | some b => if b.start < a.start then some a else some b) (none : Option Anchored)
  last?.map (·.node)

end Document

end BurnRate.Yaml
