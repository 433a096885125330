import BurnRate.Decimal.Binary

/-!
The shortest decimal that reads back as a given binary number.

A positive `m · 2^q` stands for every real that rounds to it. Grids of 1, 2, … 17 significant
digits are tried in turn; on each only the two neighbours of the number can lie in that
interval. The first grid with a hit wins, of two hits the nearer, of two equally near the larger.
-/

namespace BurnRate.Decimal

/-- The number `digits · 10^exponent`. -/
structure Scaled where
  digits : Nat
  exponent : Int
  deriving DecidableEq, Repr

/-- `b^k` as a fraction. -/
def power (b : Nat) (k : Int) : Nat × Nat :=
  if 0 ≤ k then (Nat.pow b k.toNat, 1) else (1, Nat.pow b (-k).toNat)

/-- A number with the ends of its rounding interval, over one denominator. -/
structure Interval where
  low : Nat
  value : Nat
  high : Nat
  denominator : Nat
  closed : Bool
  deriving DecidableEq, Repr

/-- The reals that round to `m · 2^q`; the ends belong to it when `m` is even. -/
def Interval.of (m : Nat) (q : Int) : Interval :=
  let (p, d) := power 2 (q - 2)
  let below := if Binary.isBoundary m q then 1 else 2
  { low := (4 * m - below) * p
    value := 4 * m * p
    high := (4 * m + 2) * p
    denominator := d
    closed := m % 2 == 0 }

/-- `c · 10^k` lies in the interval. -/
def Interval.contains (i : Interval) (c : Nat) (k : Int) : Bool :=
  let (p, d) := power 10 k
  let x := c * p * i.denominator
  if i.closed then i.low * d ≤ x && x ≤ i.high * d else i.low * d < x && x < i.high * d

/-- The `e` with `10^(e-1) ≤ value < 10^e`. -/
def Interval.magnitude (i : Interval) : Int :=
  if i.denominator ≤ i.value then (Nat.toDigits 10 (i.value / i.denominator)).length
  else 1 - ((Nat.toDigits 10 ((i.denominator - 1) / i.value)).length : Int)

/-- The multiple of `10^k` in the interval that is nearest to its value. -/
def Interval.hit? (i : Interval) (k : Int) : Option Nat :=
  let (p, d) := power 10 k
  let c := i.value * d / (i.denominator * p)
  match i.contains c k, i.contains (c + 1) k with
  | true, true =>
    if 2 * i.value * d < (2 * c + 1) * p * i.denominator then some c else some (c + 1)
  | true, false => some c
  | false, true => some (c + 1)
  | false, false => none

/-- Moves trailing zeros of the digits into the exponent. -/
def Scaled.normal (digits : Nat) (exponent : Int) : Scaled :=
  if h : 0 < digits ∧ digits % 10 = 0 then Scaled.normal (digits / 10) (exponent + 1)
  else ⟨digits, exponent⟩
  termination_by digits
  decreasing_by omega

/-- The shortest decimal in the rounding interval of a positive `m · 2^q`. -/
def shortest (m : Nat) (q : Int) : Scaled :=
  let i := Interval.of m q
  let e := i.magnitude
  let grids := (List.range 17).map fun n : Nat => e - (n + 1)
  match grids.findSome? fun k => (i.hit? k).map (·, k) with
  | some (c, k) => Scaled.normal c k
  | none => ⟨0, 0⟩

end BurnRate.Decimal
