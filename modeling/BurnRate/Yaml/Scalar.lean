import BurnRate.Decimal.Numeral

/-!
What a plain scalar stands for.

Null is empty, `~` or `null`, booleans are `true` and `false`, each in three spellings. Integers
are decimal or in base 16, 8 or 2 behind `0x`, `0o`, `0b`; floats are decimal numerals that are
finite, besides `.inf` and `.nan`. A run of digits with a leading zero and all else is text.
-/

namespace BurnRate.Yaml

/-- The kinds of scalar. Integers fit 128 bits. -/
inductive Scalar where
  | null
  | bool (b : Bool)
  | int (n : Int)
  | float (x : Float)
  | text (s : String)
  deriving Repr

def isNull (cs : List Char) : Bool :=
  match String.ofList cs with
  | "~" | "null" | "Null" | "NULL" => true
  | _ => false

def bool? (cs : List Char) : Option Bool :=
  match String.ofList cs with
  | "true" | "True" | "TRUE" => some true
  | "false" | "False" | "FALSE" => some false
  | _ => none

def dropSign : List Char → List Char
  | '-' :: cs => cs
  | '+' :: cs => cs
  | cs => cs

/-- Digits that begin with a superfluous zero; they are no number. -/
def isZeroPadded (cs : List Char) : Bool :=
  match dropSign cs with
  | '0' :: c :: r => (c :: r).all Char.isDigit
  | _ => false

/-- The digit's value, if it is below the base. -/
def digit? (base : Nat) (c : Char) : Option Nat :=
  let value : Option Nat :=
    if c.isDigit then some (c.toNat - 48)
    else if 'a' ≤ c && c ≤ 'f' then some (c.toNat - 87)
    else if 'A' ≤ c && c ≤ 'F' then some (c.toNat - 55)
    else none
  value.filter (· < base)

/-- The value of a non-empty run of digits. -/
def natural? (base : Nat) : List Char → Option Nat
  | [] => none
  | cs => cs.foldlM (fun n c => (digit? base c).map (base * n + ·)) 0

def magnitude? (cs : List Char) : Option Nat :=
  match cs with
  | '0' :: 'x' :: r => natural? 16 r
  | '0' :: 'o' :: r => natural? 8 r
  | '0' :: 'b' :: r => natural? 2 r
  | r => natural? 10 r

/-- An integer that fits 128 bits: signed behind a minus sign, else unsigned. -/
def int? (cs : List Char) : Option Int :=
  if isZeroPadded cs then none
  else
    match cs with
    | '-' :: r => (magnitude? r).bind fun n =>
      if n ≤ 0x80000000000000000000000000000000 then some (-n) else none
    | '+' :: r => (magnitude? r).bind fun n =>
      if n < 0x100000000000000000000000000000000 then some ↑n else none
    | r => (magnitude? r).bind fun n =>
      if n < 0x100000000000000000000000000000000 then some ↑n else none

/-- A finite number, an infinity or the non-number. -/
def float? (cs : List Char) : Option Float :=
  match String.ofList cs with
  | ".inf" | ".Inf" | ".INF" | "+.inf" | "+.Inf" | "+.INF" => some (1 / 0)
  | "-.inf" | "-.Inf" | "-.INF" => some (-1 / 0)
  | ".nan" | ".NaN" | ".NAN" => some (0 / 0)
  | _ =>
    match cs with
    | '+' :: c :: r => if c == '+' || c == '-' then none else Decimal.read? (c :: r)
    | r => Decimal.read? r

namespace Scalar

/-- Reads a plain scalar. -/
def ofPlain (cs : List Char) : Scalar :=
  if cs.isEmpty || isNull cs then .null
  else
    match bool? cs with
    | some b => .bool b
    | none =>
      match int? cs with
      | some n => .int n
      | none =>
        if isZeroPadded cs then .text (String.ofList cs)
        else
          match float? cs with
          | some x => .float x
          | none => .text (String.ofList cs)

def isText : Scalar → Bool
  | .text _ => true
  | _ => false

end Scalar

end BurnRate.Yaml
