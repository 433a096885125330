import BurnRate.Expression.Machine

/-!
Functions that every text can call, and the calls of values.
-/

namespace BurnRate.Expression

namespace Eval

/-- The largest number of items in a range. -/
def maxRange : Nat := 100000

/-- A count of 32 bits. -/
def countArgument (v : Value) : Answer Nat := do
  let n ← v.natArgument
  if n < 0x100000000 then .ok n else Value.invalid

def range (a : Arguments) : Answer Value := do
  let args ← a.atMost 3
  let first ← countArgument (← Value.required args[0]?)
  let stop? ← Value.optional countArgument args[1]?
  let step := (← Value.optional countArgument args[2]?).getD 1
  let (start, stop) := stop?.elim (0, first) fun stop => (first, stop)
  if step = 0 then Value.invalid
  else
    let count := (stop - start + step - 1) / step
    if maxRange < count then Value.invalid
    else return .list ((List.range count).map fun i : Nat => .int (start + i * step : Nat))

/-- The entries of the one positional argument, if there is one. -/
def baseEntries (a : Arguments) : Answer (List (Value × Value)) := do
  match ← a.positionalAtMost 1 with
  | [] | [.undefined _] | [.none] => return []
  | [.map entries _] => return entries
  | _ => Value.invalid

def dict (a : Arguments) : Answer Value := do
  let base ← baseEntries a
  return .mapOf (base ++ a.named.map fun (k, v) => (.ofText k, v))

/-- A new record with the entries of a map or with named values. -/
def newRecord (a : Arguments) : Eval Value := do
  match ← liftM (a.atMost 1) with
  | [] => add []
  | [v] =>
    match v with
    | .undefined _ | .none => add []
    | .map entries _ =>
      let attributes ← entries.mapM fun (k, v) =>
        match k with
        | .text name _ => pure (name, v)
        | _ => throw .invalidOperation
      add attributes
    | _ => throw .invalidOperation
  | _ => throw .tooManyArguments
where
  add (attributes : Names) : Eval Value := do
    let m ← get
    set { m with records := m.records ++ [attributes] }
    return .record m.records.length

def callBuiltin (name : String) (a : Arguments) : Eval Value :=
  match name with
  | "range" => range a
  | "dict" => dict a
  | "namespace" => newRecord a
  | _ => do
    let _ ← liftM (a.atMost 0)
    return .ofText ""

/-- The arguments of a routine by its parameters; what is not given is nothing. -/
def bound (r : Routine) (a : Arguments) : Answer (List Value) := do
  let taken := if r.freeNames.contains "caller" then "caller" :: r.params else r.params
  if r.params.length < a.positional.length then throw .tooManyArguments
  else if a.named.any fun e => !taken.contains e.1
      || (r.params.take a.positional.length).contains e.1 then throw .tooManyArguments
  else
    return a.positional ++ (r.params.drop a.positional.length).map fun p =>
      (a.named.reverse.lookup p).getD .nothing

/-- Calls a value. -/
def call (perform : Task → Eval Unit) (v : Value) (a : Arguments) : Eval Value :=
  match v with
  | .builtin name => callBuiltin name a
  | .routine id _ => do
    match (← get).routines[id]? with
    | some (r, closure?) =>
      let values ← bound r a
      let caller := if r.freeNames.contains "caller" then
        [("caller", (a.named.reverse.lookup "caller").getD .nothing)] else []
      inRoutine { names := caller, captured? := closure? } (perform (.routine r values))
    | Option.none => throw .invalidOperation
  | _ => throw .invalidOperation

/-- Asks a loop whether the values differ from those of the last time. -/
def changed (id : Nat) (vs : List Value) : Eval Value := do
  let m ← get
  let same := match m.lastAsked.lookup id with
    | some ws => Value.sameAll vs ws
    | Option.none => false
  set { m with lastAsked := (id, vs) :: m.lastAsked }
  return .bool !same

def callMethod (perform : Task → Eval Unit) (v : Value) (name : String) (a : Arguments) :
    Eval Value := do
  match v, name with
  | .loop id .., "changed" => changed id a.flat
  | .loop _ index .., "cycle" => return (a.flat[index % a.flat.length]?).getD .nothing
  | .loop .., _ => throw .unknownMethod
  | v, name =>
    let m ← get
    let found? := match v with
      | .record id => m.records[id]?.bind (·.lookup name)
      | v => v.attribute? name
    match found? with
    | some f => call perform f a
    | Option.none => throw .unknownMethod

/-- Calls the innermost loop with other items. -/
def callLoop (perform : Task → Eval Unit) (a : Arguments) : Eval Value := do
  match a.flat with
  | [items] =>
    match (← get).running? with
    | some r =>
      match r.again? with
      | some form => captured (perform (.loop form items))
      | Option.none => throw .invalidOperation
    | Option.none => throw .unknownFunction
  | _ => throw .invalidOperation

/-- Calls what a name stands for. -/
def callNamed (perform : Task → Eval Unit) (name : String) (a : Arguments) : Eval Value := do
  match name with
  | "super" => throw .invalidOperation
  | "loop" => callLoop perform a
  | name =>
    match ← lookup? name with
    | some v => call perform v a
    | Option.none => throw .unknownFunction

/-- Renders a block in a frame of its own. -/
def block (perform : Task → Eval Unit) (name : String) : Eval Unit := do
  match (← get).blocks.lookup name with
  | some body => inFrame {} (perform (.statements body))
  | Option.none => throw .unknownBlock

end Eval

end BurnRate.Expression
