import BurnRate.Expression.Operation

/-!
Arguments of filters, tests and functions, and what is asked of them.
-/

namespace BurnRate.Expression

/-- Evaluated arguments. -/
structure Arguments where
  positional : List Value := []
  named : List (String × Value) := []

namespace Arguments

/-- All arguments in order, where those with names count as one map at the end. -/
def flat (a : Arguments) : List Value :=
  if a.named.isEmpty then a.positional
  else
    match Value.ofNamed a.named with
    | .map entries _ => a.positional ++ [.map entries true]
    | v => a.positional ++ [v]

/-- The arguments, if there are so many at most. -/
def atMost (a : Arguments) (n : Nat) : Answer (List Value) :=
  if n < a.flat.length then .error .tooManyArguments else .ok a.flat

/-- The positional arguments, if there are so many at most; named ones are taken by name. -/
def positionalAtMost (a : Arguments) (n : Nat) : Answer (List Value) :=
  if n < a.positional.length then .error .tooManyArguments else .ok a.positional

/-- The named arguments, if all have one of the names. -/
def named? (a : Arguments) (names : List String) : Answer (List (String × Value)) :=
  if a.named.all fun e => names.contains e.1 then .ok a.named else .error .tooManyArguments

end Arguments

namespace Value

/-- An argument that has to be there. -/
def required : Option Value → Answer Value
  | some v => .ok v
  | Option.none => .error .missingArgument

/-- An argument as text. -/
def textArgument (v : Value) : Answer String :=
  match v with
  | undefined _ => .error .undefinedValue
  | map _ true => invalid
  | v => .ok v.toText

/-- An argument as a whole number. -/
def intArgument (v : Value) : Answer Int :=
  match v, v.int? with
  | undefined _, _ => .error .undefinedValue
  | _, some n => .ok n
  | _, Option.none => invalid

/-- An argument as a count. -/
def natArgument (v : Value) : Answer Nat := do
  let n ← intArgument v
  if 0 ≤ n then .ok n.toNat else invalid

/-- An argument as a truth value. -/
def boolArgument (v : Value) : Answer Bool :=
  match v with
  | undefined _ => .error .undefinedValue
  | bool b => .ok b
  | _ => invalid

/-- An optional argument; nothing and none stand for its absence. -/
def optional {α : Type} (convert : Value → Answer α) : Option Value → Answer (Option α)
  | Option.none | some none => .ok Option.none
  | some (undefined _) => .ok Option.none
  | some v => (convert v).map some

/-- The attribute at a path of names and indices between points. -/
def atPath (v : Value) (path : String) : Value :=
  (path.splitOn ".").foldl (fun v part =>
    let key := match part.toNat? with
      | some n => int n
      | Option.none => ofText part
    (v.part? key).getD nothing) v

end Value

end BurnRate.Expression
