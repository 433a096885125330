import BurnRate.Yaml.Value

/-!
Documents that list definitions: a mapping whose field `definitions` is a list of mappings with
the name of a template and a body.

An empty plain scalar counts as an empty collection. Texts are taken as they are written, whatever
else they may stand for. Other fields are skipped, and no alias in them is followed.
-/

namespace BurnRate.Definition

open Yaml (Node Reading)

/-- One definition, before its template is looked up. -/
structure Entry where
  template : String
  body : Yaml.Value
  deriving DecidableEq, Repr

namespace Entry

/-- The fields of a mapping, one level of nesting below which so many are left. -/
def fieldsOf (depth : Nat) (node : Node) : Reading (List (Node × Node)) := do
  match ← Reading.follow node with
  | .mapping _ fields => if depth = 0 then Reading.fail else return fields
  | .scalar _ true "" => return []
  | _ => Reading.fail

/-- The items of a sequence. -/
def itemsOf (depth : Nat) (node : Node) : Reading (List Node) := do
  match ← Reading.follow node with
  | .sequence _ items => if depth = 0 then Reading.fail else return items
  | .scalar _ true "" => return []
  | _ => Reading.fail

/-- The text of a scalar. -/
def textOf (node : Node) : Reading String := do
  match ← Reading.follow node with
  | .scalar _ _ s => return s
  | _ => Reading.fail

/-- The fields with some names, none of which may be there twice. -/
def named (names : List String) (fields : List (Node × Node)) : Reading (List (String × Node)) :=
  fields.foldlM (fun found (k, v) => do
    let key ← textOf k
    if !names.contains key then return found
    else if (found.lookup key).isSome then Reading.fail
    else return (key, v) :: found) []

/-- A field that has to be there. -/
def required (name : String) (fields : List (String × Node)) : Reading Node :=
  match fields.lookup name with
  | some node => pure node
  | none => Reading.fail

def ofNode (depth : Nat) (node : Node) : Reading Entry := do
  let fields ← named ["template", "definition"] (← fieldsOf depth node)
  let template ← textOf (← required "template" fields)
  let body ← Yaml.Value.ofNode (depth - 1) (← required "definition" fields)
  return ⟨template, body⟩

/-- The definitions that the root of a document lists. -/
def allOfNode (depth : Nat) (root : Node) : Reading (List Entry) := do
  let fields ← named ["definitions"] (← fieldsOf depth root)
  match fields.lookup "definitions" with
  | none => return []
  | some node => (← itemsOf (depth - 1) node).mapM (ofNode (depth - 2))

/-- The definitions in a text, if it is a document that lists some. -/
def allOfText? (s : String) : Option (List Entry) := do
  let d ← Node.ofText? s
  ((allOfNode Yaml.maxDepth d.root).run d 0).map (·.1)

end Entry

end BurnRate.Definition
