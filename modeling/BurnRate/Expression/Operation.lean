import BurnRate.Expression.Syntax
import BurnRate.Expression.Value
import BurnRate.Text.Case

/-!
Operators on values.

Whole numbers are computed in 128 bits, and a result beyond them is an error. Division is
always that of floating point numbers; its whole counterpart and the remainder are Euclidean.
-/

namespace BurnRate.Expression

abbrev Answer := Except Cause

namespace Value

def invalid {α : Type} : Answer α := .error .invalidOperation

/-- An integer result, unless it is out of range. -/
def ofInt (n : Int) : Answer Value := if inRange n then .ok (int n) else invalid

/-- The truth of a value that must not be missing. -/
def truth (v : Value) : Answer Bool :=
  if v.isMissing then .error .undefinedValue else .ok v.isTrue

/-- The values that a value consists of; nothing but a missing value has none. -/
def iterate (v : Value) : Answer (List Value) :=
  if v.isMissing then .error .undefinedValue
  else
    match v.items? with
    | some vs => .ok vs
    | Option.none => invalid

/-- Repeats a text or a list as often as a number says. -/
def repeated (n : Value) (f : Nat → Value) : Answer Value :=
  match n.int? with
  | some k => if 0 ≤ k then .ok (f k.toNat) else invalid
  | Option.none => invalid

/-- The greatest whole number that is not above the quotient, for a positive divisor; the least
that is not below it, for a negative one. -/
def floorQuotient (a b : Float) : Float :=
  let q := (a / b).toInt64.toInt
  let t := if (a / b).abs < 9223372036854775808 then Float.ofInt q else a / b
  let r := a - t * b
  if r < 0 then (if 0 < b then t - 1 else t + 1) else t

/-- The remainder of a division that is rounded toward zero. -/
def remainder (a b : Float) : Float :=
  if (a / b).abs < 9223372036854775808 then a - Float.ofInt (a / b).toInt64.toInt * b else 0 / 0

def arithmetic (op : Operator) (a b : Value) : Answer Value :=
  match op, pair? a b with
  | .add, some (.ints x y) => ofInt (x + y)
  | .add, some (.floats x y) => .ok (float (x + y))
  | .add, some (.texts x y) => .ok (ofText (x ++ y))
  | .subtract, some (.ints x y) => ofInt (x - y)
  | .subtract, some (.floats x y) => .ok (float (x - y))
  | .multiply, some (.ints x y) => ofInt (x * y)
  | .multiply, some (.floats x y) => .ok (float (x * y))
  | .floorDivide, some (.ints x y) => if y = 0 then invalid else ofInt (Int.ediv x y)
  | .floorDivide, some (.floats x y) => .ok (float (floorQuotient x y))
  | .remainder, some (.ints x y) => if y = 0 then invalid else ofInt (Int.emod x y)
  | .remainder, some (.floats x y) => .ok (float (remainder x y))
  | .power, some (.ints x y) =>
    if y < 0 then invalid
    else if x == 0 || x == 1 then .ok (int (if y == 0 then 1 else x))
    else if x == -1 then .ok (int (if y % 2 == 0 then 1 else -1))
    else if 128 ≤ y then invalid
    else ofInt (Int.pow x y.toNat)
  | .power, some (.floats x y) => .ok (float (Float.pow x y))
  | _, _ => invalid

/-- Whether a container holds a value. -/
def contains (container v : Value) : Answer Bool :=
  match container with
  | undefined _ => .ok false
  | text s _ => .ok (s.contains v.toText)
  | list items => .ok (items.any (·.same v))
  | map entries _ => .ok (valueAt? entries v).isSome
  | loop .. | routine .. | record .. | builtin .. => .ok false
  | _ => invalid

/-- Whether two values are ordered as demanded; nothing that is missing has a place. -/
def ordered (a b : Value) (p : Ordering → Bool) : Answer Bool :=
  if a.isMissing || b.isMissing then .error .undefinedValue else .ok (p (a.order b))

/-- Whether a value is in a container, which must not be missing. -/
def isIn (v container : Value) : Answer Bool :=
  if container.isMissing then .error .undefinedValue else container.contains v

/-- Whether two values are related. -/
def relates (r : Relation) (a b : Value) : Answer Bool :=
  match r with
  | .equal => .ok (a.same b)
  | .notEqual => .ok (!a.same b)
  | .less => ordered a b (· == .lt)
  | .lessEqual => ordered a b (· != .gt)
  | .greater => ordered a b (· == .gt)
  | .greaterEqual => ordered a b (· != .lt)
  | .contained => a.isIn b
  | .notContained => (a.isIn b).map (!·)

/-- Applies an operator whose operands are both evaluated. -/
def apply (op : Operator) (a b : Value) : Answer Value :=
  match op with
  | .join => .ok (ofText (a.toText ++ b.toText))
  | .divide =>
    match a.float?, b.float? with
    | some x, some y => .ok (float (x / y))
    | _, _ => invalid
  | .add =>
    match a, b with
    | list as, list bs => .ok (list (as ++ bs))
    | a, b => arithmetic .add a b
  | .multiply =>
    match a, b with
    | text s _, n => repeated n fun k => ofText (String.join (List.replicate k s))
    | n, text s _ => repeated n fun k => ofText (String.join (List.replicate k s))
    | list vs, n => repeated n fun k => list (List.replicate k vs).flatten
    | n, list vs => repeated n fun k => list (List.replicate k vs).flatten
    | a, b => arithmetic .multiply a b
  | op => arithmetic op a b

def negated : Value → Answer Value
  | int n => ofInt (-n)
  | float x => .ok (float (-x))
  | _ => invalid

/-- A bound of a slice. -/
def bound? : Value → Answer (Option Int)
  | none => .ok Option.none
  | v =>
    if v.isMissing then .error .undefinedValue
    else
      match v.int? with
      | some n => .ok (some n)
      | Option.none => invalid

/-- The positions of a slice of a sequence with so many items, in order. -/
def slicePositions (length : Nat) (start? stop? : Option Int) (step : Int) : List Nat :=
  let clamp (n low high : Int) : Int := max low (min n high)
  let fromEnd (n : Int) : Int := if n < 0 then n + length else n
  if 0 < step then
    let start := clamp (fromEnd (start?.getD 0)) 0 length
    let stop := clamp (fromEnd (stop?.getD length)) 0 length
    (List.range length).filter fun i : Nat =>
      start ≤ i && (i : Int) < stop && (i - start) % step == 0
  else
    let start := clamp (start?.elim (length - 1 : Int) fromEnd) (-1) (length - 1)
    let stop := stop?.elim (-1) fun n => clamp (fromEnd n) (-1) (length - 1)
    (List.range length).reverse.filter fun i : Nat =>
      (i : Int) ≤ start && stop < (i : Int) && (start - i) % (-step) == 0

/-- Part of a text or of a list. -/
def slice (v start stop step : Value) : Answer Value := do
  if v.isMissing then .error .undefinedValue
  else
    let start? ← bound? start
    let stop? ← bound? stop
    let step := (← bound? step).getD 1
    if step = 0 then invalid
    else
      match v with
      | text s _ =>
        let cs := s.toList
        .ok (ofText (String.ofList
          ((slicePositions cs.length start? stop? step).filterMap (cs[·]?))))
      | undefined _ | none => .ok (list [])
      | list vs => .ok (list ((slicePositions vs.length start? stop? step).filterMap (vs[·]?)))
      | _ => invalid

end Value

end BurnRate.Expression
