import BurnRate.Decimal.Numeral
import BurnRate.Expression.Token
import BurnRate.Text.Quoted

/-!
The values of expressions: their truth, text, order, parts and conversions.
-/

namespace BurnRate.Expression

inductive Value where
  /-- Nothing; a silent nothing may be written. -/
  | undefined (silent : Bool)
  | none
  | bool (b : Bool)
  | int (n : Int)
  | float (x : Float)
  /-- Safe texts are not escaped again. -/
  | text (s : String) (safe : Bool)
  | list (items : List Value)
  /-- Entries in the order of their keys; `named` marks the named arguments of a call. -/
  | map (entries : List (Value × Value)) (named : Bool)
  /-- The state of a loop; `id` tells loops apart. -/
  | loop (id index length depth : Nat) (before after : Value)
  | routine (id : Nat) (name : String)
  /-- A set of attributes that can be assigned. -/
  | record (id : Nat)
  | builtin (name : String)
  deriving Inhabited, Repr

namespace Value

def nothing : Value := undefined false

def ofText (s : String) : Value := text s false

def isUndefined : Value → Bool
  | undefined _ => true
  | _ => false

/-- Reading it as a truth value, iterating it or writing it is an error. -/
def isMissing : Value → Bool
  | undefined silent => !silent
  | _ => false

/-- Values of different kinds are ordered by their kind. -/
def rank : Value → Nat
  | undefined _ => 0
  | none => 1
  | bool _ => 2
  | int _ | float _ => 3
  | text _ _ => 4
  | list _ => 5
  | map _ _ | record _ => 6
  | loop .. | routine _ _ | builtin _ => 7

def isTrue : Value → Bool
  | undefined _ | none => false
  | bool b => b
  | int n => n != 0
  | float x => x != 0
  | text s _ => !s.isEmpty
  | list items => !items.isEmpty
  | map entries _ => !entries.isEmpty
  | loop .. | routine _ _ | record _ | builtin _ => true

/-- Integers that operations work on fit 128 bits. -/
def inRange (n : Int) : Bool :=
  -0x80000000000000000000000000000000 ≤ n && n < 0x80000000000000000000000000000000

/-- The value as an integer; truth values are 0 and 1. -/
def int? : Value → Option Int
  | bool b => some (if b then 1 else 0)
  | int n => if inRange n then some n else Option.none
  | float x =>
    if x.floor == x && x.abs < 9223372036854775808 then some x.toInt64.toInt else Option.none
  | _ => Option.none

def float? : Value → Option Float
  | bool b => some (if b then 1 else 0)
  | int n => some (Float.ofInt n)
  | float x => some x
  | _ => Option.none

/-- Two values made alike for an operation. -/
inductive Pair where
  | ints (a b : Int)
  | floats (a b : Float)
  | texts (a b : String)

def pair? : Value → Value → Option Pair
  | text a _, text b _ => some (.texts a b)
  | float a, b => b.float?.map (.floats a)
  | a, float b => a.float?.map (.floats · b)
  | a, b => do some (.ints (← a.int?) (← b.int?))

def compareFloats (a b : Float) : Ordering :=
  if a < b then .lt else if a > b then .gt
  else if a.isNaN then (if b.isNaN then .eq else .gt)
  else if b.isNaN then .lt
  else .eq

def compareNumbers : Value → Value → Ordering
  | int a, int b => compare a b
  | a, b =>
    match a.float?, b.float? with
    | some a, some b => compareFloats a b
    | _, _ => .eq

mutual

def order : Value → Value → Ordering
  | list as, list bs => orderAll as bs
  | map as _, map bs _ => orderEntries as bs
  | text a _, text b _ => compare a b
  | bool a, bool b => compare a b
  | a, b => (compare a.rank b.rank).then (compareNumbers a b)

def orderAll : List Value → List Value → Ordering
  | [], [] => .eq
  | [], _ :: _ => .lt
  | _ :: _, [] => .gt
  | a :: as, b :: bs => (order a b).then (orderAll as bs)

def orderEntries : List (Value × Value) → List (Value × Value) → Ordering
  | [], [] => .eq
  | [], _ :: _ => .lt
  | _ :: _, [] => .gt
  | (k, v) :: as, (l, w) :: bs => ((order k l).then (order v w)).then (orderEntries as bs)

end

mutual

/-- Equality; numbers and truth values are equal by value. -/
def same : Value → Value → Bool
  | undefined _, undefined _ => true
  | none, none => true
  | list as, list bs => sameAll as bs
  | map as _, map bs _ => sameEntries as bs
  | routine a _, routine b _ => a == b
  | record a, record b => a == b
  | loop a .., loop b .. => a == b
  | builtin a, builtin b => a == b
  | a, b =>
    match pair? a b with
    | some (.ints a b) => a == b
    | some (.floats a b) => a == b
    | some (.texts a b) => a == b
    | Option.none => false

def sameAll : List Value → List Value → Bool
  | [], [] => true
  | a :: as, b :: bs => same a b && sameAll as bs
  | _, _ => false

def sameEntries : List (Value × Value) → List (Value × Value) → Bool
  | [], [] => true
  | (k, v) :: as, (l, w) :: bs => same k l && same v w && sameEntries as bs
  | _, _ => false

end

/-- The entry of a map with a given key. -/
def valueAt? (entries : List (Value × Value)) (key : Value) : Option Value :=
  (entries.find? fun e => e.1.order key == .eq).map (·.2)

/-- Sets an entry of a map, in key order. -/
def putEntry (key value : Value) : List (Value × Value) → List (Value × Value)
  | [] => [(key, value)]
  | e :: es =>
    match key.order e.1 with
    | .lt => (key, value) :: e :: es
    | .eq => (e.1, value) :: es
    | .gt => e :: putEntry key value es

def mapOf (entries : List (Value × Value)) : Value :=
  .map (entries.foldl (fun es (k, v) => putEntry k v es) []) false

/-- Named values as a map. -/
def ofNamed (named : List (String × Value)) : Value :=
  mapOf (named.map fun (k, v) => (ofText k, v))

/-- Texts between separators, between brackets. -/
def bracketed (opening closing : String) (parts : List String) : String :=
  opening ++ ", ".intercalate parts ++ closing

def floatText (x : Float) : String :=
  if x.isFinite then Decimal.pointedNumeral x else Decimal.numeral x

mutual

/-- The value as it is written inside of lists and maps. -/
def shown : Value → String
  | undefined _ => "undefined"
  | none => "None"
  | bool b => if b then "True" else "False"
  | int n => toString n
  | float x => floatText x
  | text s _ => Text.quoted s
  | list items => bracketed "[" "]" (shownAll items)
  | map entries _ => bracketed "\x7b" "\x7d" (shownEntries entries)
  | loop _ index length _ _ _ => "<loop " ++ toString (index + 1) ++ "/" ++ toString length ++ ">"
  | routine _ name => "<macro " ++ name ++ ">"
  | record _ => "\x7b\x7d"
  | builtin name => name

def shownAll : List Value → List String
  | [] => []
  | v :: vs => v.shown :: shownAll vs

def shownEntries : List (Value × Value) → List String
  | [] => []
  | (k, v) :: es => (k.shown ++ ": " ++ v.shown) :: shownEntries es

end

/-- The text of a value. -/
def toText : Value → String
  | undefined _ => ""
  | text s _ => s
  | v => v.shown

/-- The values that a value consists of. -/
def items? : Value → Option (List Value)
  | undefined _ | none => some []
  | text s _ => some (s.toList.map fun c => ofText (String.ofList [c]))
  | list items => some items
  | map entries _ => some (entries.map (·.1))
  | _ => Option.none

def length? : Value → Option Nat
  | text s _ => some s.length
  | list items => some items.length
  | map entries _ => some entries.length
  | _ => Option.none

/-- The index that a number denotes in a sequence; negative ones count from the end. -/
def index? (key : Value) (length : Nat) : Option Nat := do
  let n ← key.int?
  if 0 ≤ n then some n.toNat
  else if -n ≤ length then some (length - (-n).toNat)
  else Option.none

/-- The attributes of the state of a loop. -/
def loopAttribute? (index length depth : Nat) (before after : Value) (name : String) :
    Option Value :=
  match name with
  | "index0" => some (.int index)
  | "index" => some (.int (index + 1))
  | "length" => some (.int length)
  | "revindex" => some (.int (length - index))
  | "revindex0" => some (.int (length - index - 1))
  | "first" => some (.bool (index == 0))
  | "last" => some (.bool (index + 1 == length))
  | "depth" => some (.int (depth + 1))
  | "depth0" => some (.int depth)
  | "previtem" => some before
  | "nextitem" => some after
  | _ => Option.none

/-- A part of a value by its key, where it has one. -/
def part? (v key : Value) : Option Value :=
  match v with
  | map entries _ => valueAt? entries key
  | list items => do items[← key.index? items.length]?
  | text s _ => do
    let c ← s.toList[← key.index? s.length]?
    some (ofText (String.ofList [c]))
  | loop _ index length depth before after =>
    match key with
    | text name _ => loopAttribute? index length depth before after name
    | _ => Option.none
  | routine _ name =>
    match key with
    | text "name" _ => some (ofText name)
    | _ => Option.none
  | _ => Option.none

/-- An attribute of a value, where it has one. -/
def attribute? (v : Value) (name : String) : Option Value :=
  match v with
  | map .. | loop .. | routine .. => v.part? (ofText name)
  | _ => Option.none

end Value

end BurnRate.Expression
