import BurnRate.Expression.Syntax

/-!
The names that an expression text takes from its context.

A name is free where it is read and neither assigned before in an enclosing scope nor given by a
loop, a block or a routine. What a slice is taken of, the arguments of a block's filter and the
sources of included texts are not looked at.
-/

namespace BurnRate.Expression

/-- Names read so far that were not assigned, and the names assigned in each scope. -/
structure Usage where
  free : List String := []
  scopes : List (List String) := [[]]

namespace Usage

def assign (u : Usage) (name : String) : Usage :=
  match u.scopes with
  | [] => { u with scopes := [[name]] }
  | s :: ss => { u with scopes := (name :: s) :: ss }

def read (u : Usage) (name : String) : Usage :=
  if u.scopes.any (·.contains name) || u.free.contains name then u
  else { u with free := name :: u.free }

def enter (u : Usage) : Usage := { u with scopes := [] :: u.scopes }

def leave (u : Usage) : Usage := { u with scopes := u.scopes.drop 1 }

end Usage

mutual

/-- Assigns the names of a target. -/
def Expr.assign (u : Usage) : Expr → Usage
  | .var name => u.assign name
  | .list es => assignAll u es
  | _ => u

def assignAll (u : Usage) : List Expr → Usage
  | [] => u
  | e :: es => assignAll (e.assign u) es

end

mutual

/-- Reads the names of an expression. -/
def Expr.use (u : Usage) : Expr → Usage
  | .literal _ => u
  | .var name => u.read name
  | .not e => e.use u
  | .negate e => e.use u
  | .binary _ a b => b.use (a.use u)
  | .compare first rest => useComparisons (first.use u) rest
  | .choose condition yes no? => useOption (yes.use (condition.use u)) no?
  | .filter _ target? args => useArguments (useOption u target?) args
  | .test _ target args => useArguments (target.use u) args
  | .attribute e _ => e.use u
  | .item e key => key.use (e.use u)
  | .slice _ start? stop? step? => useOption (useOption (useOption u start?) stop?) step?
  | .call callee args => useArguments (callee.use u) args
  | .list items => useAll u items
  | .map entries => useEntries u entries

def useOption (u : Usage) : Option Expr → Usage
  | none => u
  | some e => e.use u

def useAll (u : Usage) : List Expr → Usage
  | [] => u
  | e :: es => useAll (e.use u) es

def useComparisons (u : Usage) : List (Relation × Expr) → Usage
  | [] => u
  | (_, e) :: es => useComparisons (e.use u) es

def useEntries (u : Usage) : List (Expr × Expr) → Usage
  | [] => u
  | (k, v) :: es => useEntries (v.use (k.use u)) es

def Argument.use (u : Usage) : Argument → Usage
  | .positional e => e.use u
  | .named _ e => e.use u
  | .spread e => e.use u
  | .spreadNamed e => e.use u

def useArguments (u : Usage) : List Argument → Usage
  | [] => u
  | a :: as => useArguments (a.use u) as

end

/-- Each target is assigned before its value is read. -/
def useAssignments (u : Usage) (assignments : List (Expr × Expr)) : Usage :=
  assignments.foldl (fun u (target, value) => value.use (target.assign u)) u

mutual

/-- Reads and assigns the names of a statement. -/
def Statement.use (u : Usage) : Statement → Usage
  | .copy _ => u
  | .emit e => e.use u
  | .loop target items filter? _ body orElse =>
    let u := target.assign (items.use (u.enter.assign "loop"))
    let u := (useStatements (useOption u filter?) body).leave
    (useStatements u.enter orElse).leave
  | .branch condition yes no =>
    let u := (useStatements (condition.use u).enter yes).leave
    (useStatements u.enter no).leave
  | .scope assignments body =>
    (useStatements (useAssignments u.enter assignments) body).leave
  | .assign target value => value.use (target.assign u)
  | .capture target _ body => (useStatements (target.assign u).enter body).leave
  | .escape _ body => (useStatements u.enter body).leave
  | .filtered _ body => (useStatements u.enter body).leave
  | .block _ body => (useStatements (u.enter.assign "super") body).leave
  | .requiredBlock _ => u
  | .importAs _ target => target.assign u
  | .importFrom _ names => names.foldl (fun u (name, as?) => u.assign (as?.getD name)) u
  | .extend _ => u
  | .include _ _ => u
  | .define r => r.use (u.assign r.name)
  | .callWith callee args r => r.use (useArguments (callee.use u) args)
  | .run callee args => useArguments (callee.use u) args

def useStatements (u : Usage) : List Statement → Usage
  | [] => u
  | s :: ss => useStatements (s.use u) ss

/-- The parameters of a routine hold in its body alone. -/
def Routine.use (u : Usage) : Routine → Usage
  | .mk _ params defaults body =>
    let u := params.foldl Usage.assign (u.enter.assign "caller")
    (useStatements (useAll u defaults) body).leave

end

/-- The free names of a text. -/
def freeNames (ss : List Statement) : List String :=
  (useStatements { scopes := [["self"]] } ss).free

/-- The names that a routine takes from outside; `caller` is among them if the routine itself reads
it. -/
def Routine.freeNames (r : Routine) : List String :=
  (useStatements (useAll (r.params.foldl Usage.assign {}) r.defaults) r.body).free

end BurnRate.Expression
