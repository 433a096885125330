import BurnRate.Expression.Argument

/-!
Tests: what can be asked of a value behind the word `is`.
-/

namespace BurnRate.Expression.Value

/-- Names of all filters. -/
def filterNames : List String :=
  ["abs", "attr", "batch", "bool", "capitalize", "chain", "count", "d", "default", "dictsort",
    "e", "escape", "first", "float", "groupby", "indent", "int", "items", "join", "last",
    "length", "lines", "list", "lower", "map", "max", "min", "pprint", "reject", "rejectattr",
    "replace", "reverse", "round", "safe", "select", "selectattr", "slice", "sort", "split",
    "string", "sum", "title", "trim", "unique", "upper", "zip"]

/-- Names of all tests. -/
def testNames : List String :=
  ["boolean", "defined", "divisibleby", "endingwith", "eq", "equalto", "==", "escaped", "even",
    "false", "filter", "float", "ge", ">=", "greaterthan", "gt", ">", "in", "int", "integer",
    "iterable", "le", "<=", "lessthan", "lt", "<", "lower", "mapping", "ne", "!=", "none",
    "number", "odd", "safe", "sameas", "sequence", "startingwith", "string", "test", "true",
    "undefined", "upper"]

/-- One argument behind the value. -/
def oneArgument (a : Arguments) : Answer Value := do
  required (← a.atMost 1).head?

/-- No argument behind the value. -/
def noArgument (a : Arguments) : Answer Unit := do
  let _ ← a.atMost 0

/-- Whether a text has letters and all of them are mapped to themselves. -/
def isCased (s : String) (toCase : Char → List Char) : Bool :=
  s.toList.all fun c => toCase c == [c]

/-- The answer of a test. -/
def test (name : String) (v : Value) (a : Arguments) : Answer Bool :=
  let plain (b : Bool) : Answer Bool := (noArgument a).map fun _ => b
  let compared (f : Ordering → Bool) : Answer Bool := (oneArgument a).map fun w => f (v.order w)
  match name with
  | "undefined" => plain v.isUndefined
  | "defined" => plain !v.isUndefined
  | "none" => plain (match v with | none => true | _ => false)
  | "safe" | "escaped" => plain (match v with | text _ safe => safe | _ => false)
  | "boolean" => plain (match v with | bool _ => true | _ => false)
  | "true" => plain (match v with | bool b => b | _ => false)
  | "false" => plain (match v with | bool b => !b | _ => false)
  | "odd" => plain (v.int?.any (· % 2 != 0))
  | "even" => plain (v.int?.any (· % 2 == 0))
  | "number" => plain (match v with | int _ | float _ => true | _ => false)
  | "integer" | "int" => plain (match v with | int _ => true | _ => false)
  | "float" => plain (match v with | float _ => true | _ => false)
  | "string" => plain (match v with | text .. => true | _ => false)
  | "sequence" => plain (match v with | list _ => true | _ => false)
  | "mapping" => plain (match v with | map .. | record _ => true | _ => false)
  | "iterable" => plain (match v with | text .. | list _ | map .. => true | _ => false)
  | "divisibleby" => do
    match pair? v (← oneArgument a) with
    | some (.ints x y) => .ok (y != 0 && x % y == 0)
    | some (.floats x y) => .ok (remainder x y == 0)
    | _ => .ok false
  | "startingwith" => do
    let w ← textArgument (← oneArgument a)
    .ok (w.toList.isPrefixOf (← textArgument v).toList)
  | "endingwith" => do
    let w ← textArgument (← oneArgument a)
    .ok (w.toList.isSuffixOf (← textArgument v).toList)
  | "lower" => do
    noArgument a
    .ok (isCased (← textArgument v) Text.lowerChar)
  | "upper" => do
    noArgument a
    .ok (isCased (← textArgument v) Text.upperChar)
  | "eq" | "equalto" | "==" => (oneArgument a).map fun w => v.same w
  | "ne" | "!=" => (oneArgument a).map fun w => !v.same w
  | "lt" | "lessthan" | "<" => compared (· == .lt)
  | "le" | "<=" => compared (· != .gt)
  | "gt" | "greaterthan" | ">" => compared (· == .gt)
  | "ge" | ">=" => compared (· != .lt)
  | "sameas" => (oneArgument a).map fun w => v.rank == w.rank && v.same w
  | "in" => do
    let w ← oneArgument a
    match contains w v with
    | .ok b => .ok b
    | .error _ => .ok false
  | "filter" => plain (match v with | text s _ => filterNames.contains s | _ => false)
  | "test" => plain (match v with | text s _ => testNames.contains s | _ => false)
  | _ => .error .unknownTest

end BurnRate.Expression.Value
