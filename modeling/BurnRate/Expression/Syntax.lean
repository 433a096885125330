import BurnRate.Text.Blank

/-!
The syntax of expression texts: expressions, and the statements around them.
-/

namespace BurnRate.Expression

inductive Literal where
  | none
  | bool (b : Bool)
  | int (n : Nat)
  | float (x : Float)
  | text (s : String)
  deriving Repr

/-- What a comparison asks of two values. -/
inductive Relation where
  | equal | notEqual | less | lessEqual | greater | greaterEqual | contained | notContained
  deriving DecidableEq, Repr

inductive Operator where
  | or | and
  | add | subtract | join | multiply | divide | floorDivide | remainder | power
  deriving DecidableEq, Repr

mutual

inductive Expr where
  | literal (l : Literal)
  | var (name : String)
  | not (e : Expr)
  | negate (e : Expr)
  | binary (op : Operator) (a b : Expr)
  /-- Each value compared with the one before it; all comparisons have to hold. -/
  | compare (first : Expr) (rest : List (Relation × Expr))
  | choose (condition yes : Expr) (no? : Option Expr)
  /-- Without a target, the filter applies to the text of a block. -/
  | filter (name : String) (target? : Option Expr) (args : List Argument)
  | test (name : String) (target : Expr) (args : List Argument)
  | attribute (e : Expr) (name : String)
  | item (e key : Expr)
  | slice (e : Expr) (start? stop? step? : Option Expr)
  | call (callee : Expr) (args : List Argument)
  | list (items : List Expr)
  | map (entries : List (Expr × Expr))
  deriving Repr

inductive Argument where
  | positional (e : Expr)
  | named (name : String) (e : Expr)
  /-- A list whose items are arguments. -/
  | spread (e : Expr)
  /-- A map whose entries are named arguments. -/
  | spreadNamed (e : Expr)
  deriving Repr

end

mutual

inductive Statement where
  | copy (s : String)
  | emit (e : Expr)
  | loop (target items : Expr) (filter? : Option Expr) (recursive : Bool)
      (body orElse : List Statement)
  | branch (condition : Expr) (yes no : List Statement)
  /-- Assignments that hold in the body alone. -/
  | scope (assignments : List (Expr × Expr)) (body : List Statement)
  | assign (target value : Expr)
  /-- Assigns what the body writes. -/
  | capture (target : Expr) (filter? : Option Expr) (body : List Statement)
  | escape (mode : Expr) (body : List Statement)
  | filtered (filter : Expr) (body : List Statement)
  | block (name : String) (body : List Statement)
  /-- A block whose body only a text that extends this one can give. -/
  | requiredBlock (name : String)
  | importAs (source target : Expr)
  | importFrom (source : Expr) (names : List (String × Option String))
  | extend (parent : Expr)
  | include (source : Expr) (ignoreMissing : Bool)
  | define (r : Routine)
  /-- Calls with a routine as the argument `caller`. -/
  | callWith (callee : Expr) (args : List Argument) (r : Routine)
  | run (callee : Expr) (args : List Argument)
  deriving Repr

/-- A part of a text that can be called with arguments. -/
inductive Routine where
  /-- The defaults are those of the last parameters. -/
  | mk (name : String) (params : List String) (defaults : List Expr) (body : List Statement)
  deriving Repr

end

/-- The statement copies nothing but white space. -/
def Statement.isBlank : Statement → Bool
  | copy s => Text.isAllBlank s
  | _ => false

namespace Routine

def name : Routine → String
  | mk name _ _ _ => name

def params : Routine → List String
  | mk _ params _ _ => params

def defaults : Routine → List Expr
  | mk _ _ defaults _ => defaults

def body : Routine → List Statement
  | mk _ _ _ body => body

end Routine

end BurnRate.Expression
