import BurnRate.Expression.Function

/-!
Evaluation of expressions and statements, by recursion on their syntax. Calls go through `perform`,
which renders other parts of the text.
-/

namespace BurnRate.Expression

def Literal.value : Literal → Value
  | .none => .none
  | .bool b => .bool b
  | .int n => .int n
  | .float x => .float x
  | .text s => .ofText s

def Expr.isSelf : Expr → Bool
  | .var "self" => true
  | _ => false

/-- Of the values with one name, the last. -/
def lastOfEach : List (String × Value) → List (String × Value)
  | [] => []
  | e :: es => if es.any (·.1 == e.1) then lastOfEach es else e :: lastOfEach es

section

variable (perform : Task → Eval Unit)

mutual

def Expr.eval : Expr → Eval Value
  | .literal l => return l.value
  | .var name => return (← Eval.lookup? name).getD .nothing
  | .not e => do return .bool !(← (← e.eval).truth)
  | .negate e => do (← e.eval).negated
  | .binary .and a b => do
    let v ← a.eval
    if ← v.truth then b.eval else return v
  | .binary .or a b => do
    let v ← a.eval
    if ← v.truth then return v else b.eval
  | .binary op a b => do
    let v ← Eval.opened (← a.eval)
    v.apply op (← Eval.opened (← b.eval))
  | .compare first rest => do evalComparisons (← first.eval) rest
  | .choose condition yes no? => do
    if ← (← condition.eval).truth then yes.eval else evalOption (.undefined true) no?
  | .filter name target? args => do
    let v ← Eval.opened (← evalOption (← get).piped target?)
    let a ← evalArguments args
    Value.applyFilter (a.positional.length + 1) name v a
  | .test name target args => do
    let v ← Eval.opened (← target.eval)
    return .bool (← v.test name (← evalArguments args))
  | .attribute e name => do
    let v ← e.eval
    Eval.part v (.ofText name) (v.attribute? name)
  | .item e key => do
    let v ← e.eval
    let k ← key.eval
    Eval.part v k (v.part? k)
  | .slice e start? stop? step? => do
    let v ← e.eval
    let start ← evalOption .none start?
    let stop ← evalOption .none stop?
    v.slice start stop (← evalOption (.int 1) step?)
  | .call callee args => callee.evalCall callee.eval (evalArguments args)
  | .list items => return .list (← evalAll items)
  | .map entries => return .mapOf (← evalEntries entries)

/-- Calls an expression; `value` evaluates it as a whole. -/
def Expr.evalCall (value : Eval Value) (args : Eval Arguments) : Expr → Eval Value
  | .var name => do Eval.callNamed perform name (← args)
  | .attribute e name =>
    if e.isSelf then Eval.captured (Eval.block perform name)
    else do
      let v ← e.eval
      Eval.callMethod perform v name (← args)
  | _ => do
    let v ← value
    Eval.call perform v (← args)

def evalOption (default : Value) : Option Expr → Eval Value
  | none => return default
  | some e => e.eval

def evalAll : List Expr → Eval (List Value)
  | [] => return []
  | e :: es => return (← e.eval) :: (← evalAll es)

/-- Compares a value with the first of the others, that one with the next, and so on up to the
first comparison that does not hold. -/
def evalComparisons : Value → List (Relation × Expr) → Eval Value
  | _, [] => return .bool true
  | v, (r, e) :: rest => do
    let w ← e.eval
    if ← (← Eval.opened v).relates r (← Eval.opened w) then evalComparisons w rest
    else return .bool false

def evalEntries : List (Expr × Expr) → Eval (List (Value × Value))
  | [] => return []
  | (k, v) :: es => return (← k.eval, ← v.eval) :: (← evalEntries es)

def evalArguments (args : List Argument) : Eval Arguments := do
  let positional ← evalPositional args
  return ⟨positional, lastOfEach (← evalNamed args)⟩

def evalPositional : List Argument → Eval (List Value)
  | [] => return []
  | .positional e :: as => return (← e.eval) :: (← evalPositional as)
  | .spread e :: as => do
    let v ← e.eval
    let rest ← evalPositional as
    match v.items? with
    | some vs => return vs ++ rest
    | Option.none => throw .invalidOperation
  | _ :: as => evalPositional as

def evalNamed : List Argument → Eval (List (String × Value))
  | [] => return []
  | .named name e :: as => return (name, ← e.eval) :: (← evalNamed as)
  | .spreadNamed e :: as => do
    let v ← e.eval
    let rest ← evalNamed as
    match v with
    | .map entries _ => return entries.map (fun (k, w) => (k.toText, w)) ++ rest
    | _ => throw .invalidOperation
  | _ :: as => evalNamed as

end

mutual

/-- Assigns a value to a target. -/
def Expr.set (v : Value) : Expr → Eval Unit
  | .var name => Eval.store name v
  | .list targets => do
    let vs ← Eval.unpack v targets.length
    setAll targets vs
  | .attribute e name => do
    let r ← e.eval perform
    Eval.setAttribute r name v
  | _ => return ()

def setAll : List Expr → List Value → Eval Unit
  | e :: es, v :: vs => do
    e.set v
    setAll es vs
  | _, _ => return ()

end

/-- The items with their neighbours. -/
def neighbours (before : Value) : List Value → List (Value × Value × Value)
  | [] => []
  | v :: vs => (before, v, vs.head?.getD .nothing) :: neighbours v vs

/-- Runs a loop in one frame; answers whether there was an item. -/
def runLoop (again? : Option LoopForm) (set : Value → Eval Unit) (body : Eval Unit)
    (items : Value) : Eval Bool := do
  let vs ← (← Eval.opened items).iterate
  let length := vs.length
  let m ← get
  let depth := match m.running? with
    | some r => if r.again?.isSome then r.depth + 1 else 0
    | none => 0
  let id := m.loops
  modify fun m => { m with loops := m.loops + 1 }
  Eval.inFrame {} do
    for ((before, v, after), i) in (neighbours .nothing vs).zipIdx do
      let running : Running := ⟨.loop id i length depth before after, depth, again?⟩
      modify fun m =>
        match m.frames with
        | [] => m
        | f :: fs => { m with frames := { f with loop? := some running } :: fs }
      set v
      body
  return !vs.isEmpty

/-- The items that pass the condition of a loop, each looked at in one frame without a loop. -/
def passing (set : Value → Eval Unit) (condition : Eval Value) (items : Value) :
    Eval Value := do
  let vs ← (← Eval.opened items).iterate
  Eval.inFrame {} do
    let kept ← vs.filterM fun v => do
      set v
      (← condition).truth
    return .list kept

mutual

def Statement.exec : Statement → Eval Unit
  | .copy s => Eval.write s
  | .emit e => do Eval.emit (← e.eval perform)
  | .loop target items filter? recursive body orElse => do
    let v ← items.eval perform
    let v ← match filter? with
      | some condition => passing (target.set perform) (condition.eval perform) v
      | none => pure v
    let again? := if recursive then some ⟨target, body⟩ else none
    let ran ← runLoop again? (target.set perform) (execAll body) v
    if ran then return () else execAll orElse
  | .branch condition yes no => do
    if ← (← condition.eval perform).truth then execAll yes else execAll no
  | .scope assignments body => Eval.inFrame {} do
    for (target, value) in assignments do
      target.set perform (← value.eval perform)
    execAll body
  | .assign target value => do target.set perform (← value.eval perform)
  | .capture target filter? body => do
    let v ← Eval.captured (execAll body)
    let v ← match filter? with
      | some filter =>
        modify fun m => { m with piped := v }
        filter.eval perform
      | none => pure v
    target.set perform v
  | .escape mode body => do
    let escaping ← Eval.escapeMode (← mode.eval perform)
    let outer := (← get).escaping
    modify fun m => { m with escaping }
    execAll body
    modify fun m => { m with escaping := outer }
  | .filtered filter body => do
    let v ← Eval.captured (execAll body)
    modify fun m => { m with piped := v }
    Eval.emit (← filter.eval perform)
  | .block name _ => Eval.block perform name
  | .requiredBlock _ => throw .invalidOperation
  | .importAs source target => do
    Eval.inFrame {} do Eval.includeText (← source.eval perform) false
    target.set perform (.mapOf [])
  | .importFrom source names => do
    let vs ← Eval.inFrame {} do
      Eval.includeText (← source.eval perform) false
      names.mapM fun (name, _) => return (← Eval.lookup? name).getD .nothing
    for ((name, as?), v) in names.zip vs do
      Eval.store (as?.getD name) v
  | .extend parent => do Eval.extendText (← parent.eval perform)
  | .include source ignoreMissing => do
    Eval.includeText (← source.eval perform) ignoreMissing
  | .define r => do Eval.store r.name (← Eval.routine r)
  | .callWith callee args r => do
    let args : Eval Arguments := do
      let a ← evalArguments perform args
      return { a with named := lastOfEach (a.named ++ [("caller", ← Eval.routine r)]) }
    Eval.emit (← callee.evalCall perform (callee.eval perform) args)
  | .run callee args => do
    let _ ← callee.evalCall perform (callee.eval perform) (evalArguments perform args)
    return ()

def execAll : List Statement → Eval Unit
  | [] => return ()
  | s :: ss => do
    s.exec
    execAll ss

end

/-- Gives parameters their values, the last one first. Where a value is missing, the default
counts, which sees the later parameters alone. -/
def execParameters : List (String × Value × Option Expr) → Eval Unit
  | [] => return ()
  | (name, v, default?) :: ps => do
    execParameters ps
    match v, default? with
    | .undefined _, some e => Eval.store name (← e.eval perform)
    | v, _ => Eval.store name v

end

/-- The parameters of a routine with their values and defaults. -/
def Routine.withValues (r : Routine) (vs : List Value) : List (String × Value × Option Expr) :=
  let defaults :=
    List.replicate (r.params.length - r.defaults.length) none ++ r.defaults.map some
  r.params.zip (vs.zip defaults)

/-- Renders a part of the text. `fuel` bounds how deep calls nest; as each takes a frame, the depth
of frames is what is exceeded first. -/
def perform : Nat → Task → Eval Unit
  | 0, _ => throw .invalidOperation
  | fuel + 1, .routine r vs => do
    execParameters (perform fuel) (r.withValues vs)
    execAll (perform fuel) r.body
  | fuel + 1, .statements body => execAll (perform fuel) body
  | fuel + 1, .loop form items => do
    let _ ← runLoop (some form) (form.target.set (perform fuel))
      (execAll (perform fuel) form.body) items
    return ()

end BurnRate.Expression
