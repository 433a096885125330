import BurnRate.Duration.Basic
import BurnRate.Text.Blank

/-!
Durations from text: numbers with units, added up.

White space may stand before a number, inside it and between it and its unit, and must
stand after a unit unless a number follows at once. A number may have a decimal fraction if the
result is exact: to the nanosecond below hours, to the second from hours on. Every intermediate
number has to fit a 64 bit word.
-/

namespace BurnRate.Duration

inductive Unit where
  | nanosecond | microsecond | millisecond | second | minute | hour | day | week | month | year
  deriving DecidableEq, Repr

def Unit.ofName? (name : String) : Option Unit :=
  match name with
  | "nanos" | "nsec" | "ns" => some .nanosecond
  | "usec" | "us" | "µs" => some .microsecond
  | "millis" | "msec" | "ms" => some .millisecond
  | "seconds" | "second" | "secs" | "sec" | "s" => some .second
  | "minutes" | "minute" | "min" | "mins" | "m" => some .minute
  | "hours" | "hour" | "hr" | "hrs" | "h" => some .hour
  | "days" | "day" | "d" => some .day
  | "weeks" | "week" | "wk" | "wks" | "w" => some .week
  | "months" | "month" | "M" => some .month
  | "years" | "year" | "yr" | "yrs" | "y" => some .year
  | _ => none

/-- Product of two words, if it is a word. -/
def product? (a b : Nat) : Option Nat := if a * b < 0x10000000000000000 then some (a * b) else none

/-- Seconds and nanoseconds of a whole number of units; the nanoseconds may exceed a second. -/
def Unit.whole? (u : Unit) (n : Nat) : Option (Nat × Nat) :=
  match u with
  | .nanosecond => some (0, n)
  | .microsecond => (product? n 1000).map (0, ·)
  | .millisecond => (product? n 1000000).map (0, ·)
  | .second => some (n, 0)
  | .minute => (product? n 60).map (·, 0)
  | .hour => (product? n 3600).map (·, 0)
  | .day => (product? n secondsPerDay).map (·, 0)
  | .week => (product? n secondsPerWeek).map (·, 0)
  | .month => (product? n secondsPerMonth).map (·, 0)
  | .year => (product? n secondsPerYear).map (·, 0)

/-- The share `numerator / denominator` of `k`, if it comes out even. -/
def share? (k numerator denominator : Nat) : Option Nat := do
  let x ← product? numerator k
  if x % denominator = 0 then some (x / denominator) else none

/-- Seconds and nanoseconds of `numerator / denominator` units, if they come out even. -/
def Unit.fraction? (u : Unit) (numerator denominator : Nat) : Option (Nat × Nat) :=
  match u with
  | .nanosecond => none
  | .microsecond => (share? 1000 numerator denominator).map (0, ·)
  | .millisecond => (share? 1000000 numerator denominator).map (0, ·)
  | .second => (share? 1000000000 numerator denominator).map (0, ·)
  | .minute => (share? 60000000000 numerator denominator).map (0, ·)
  | .hour => (share? 3600 numerator denominator).map (·, 0)
  | .day => (share? secondsPerDay numerator denominator).map (·, 0)
  | .week => (share? secondsPerWeek numerator denominator).map (·, 0)
  | .month => (share? secondsPerMonth numerator denominator).map (·, 0)
  | .year => (share? secondsPerYear numerator denominator).map (·, 0)

/-- Adds seconds and nanoseconds to a sum whose nanoseconds are below one second. -/
def add? (sum part : Nat × Nat) : Option (Nat × Nat) :=
  let nanos := sum.2 + part.2
  let seconds := sum.1 + part.1 + nanos / 1000000000
  if nanos < 0x10000000000000000 && seconds < 0x10000000000000000 then
    some (seconds, nanos % 1000000000)
  else none

def isUnitLetter (c : Char) : Bool := c.isAlpha || c == 'µ'

/-- A decimal fraction: `numerator / denominator`. -/
structure Fraction where
  numerator : Nat
  denominator : Nat
  deriving DecidableEq, Repr

/-- Where the reader stands. -/
inductive Reading where
  /-- Before a number; `first` before the very first one. -/
  | gap (first : Bool)
  /-- In the whole digits of a number. -/
  | whole (n : Nat)
  /-- Behind the point of a number; `started` once a digit was read. -/
  | fraction (n : Nat) (f : Fraction) (started : Bool)
  /-- In the letters of a unit, the last letter first. -/
  | unit (n : Nat) (f? : Option Fraction) (letters : List Char)

/-- Appends a decimal digit to a word. -/
def push? (n : Nat) (c : Char) : Option Nat := do
  let m ← product? n 10
  let k := m + (c.toNat - 48)
  if k < 0x10000000000000000 then some k else none

/-- Adds a number with its unit to the sum so far. -/
def addPart? (sum : Nat × Nat) (n : Nat) (f? : Option Fraction) (letters : List Char) :
    Option (Nat × Nat) := do
  let u ← Unit.ofName? (String.ofList letters.reverse)
  let sum ← add? sum (← u.whole? n)
  match f? with
  | none => some sum
  | some f => add? sum (← u.fraction? f.numerator f.denominator)

def readFrom? (sum : Nat × Nat) : Reading → List Char → Option (Nat × Nat)
  | .gap first, [] => if first then none else some sum
  | .gap first, c :: cs =>
    if c.isDigit then readFrom? sum (.whole (c.toNat - 48)) cs
    else if Text.isBlank c then readFrom? sum (.gap first) cs
    else none
  | .whole _, [] => none
  | .whole n, c :: cs => do
    if c.isDigit then readFrom? sum (.whole (← push? n c)) cs
    else if Text.isBlank c then readFrom? sum (.whole n) cs
    else if isUnitLetter c then readFrom? sum (.unit n none [c]) cs
    else if c == '.' then readFrom? sum (.fraction n ⟨0, 1⟩ false) cs
    else none
  | .fraction _ _ _, [] => none
  | .fraction n f started, c :: cs => do
    if c.isDigit then
      let f : Fraction := ⟨← push? f.numerator c, ← product? f.denominator 10⟩
      readFrom? sum (.fraction n f true) cs
    else if Text.isBlank c then readFrom? sum (.fraction n f started) cs
    else if isUnitLetter c && started then readFrom? sum (.unit n (some f) [c]) cs
    else none
  | .unit n f? letters, [] => addPart? sum n f? letters
  | .unit n f? letters, c :: cs => do
    if isUnitLetter c then readFrom? sum (.unit n f? (c :: letters)) cs
    else
      let sum ← addPart? sum n f? letters
      if Text.isBlank c then readFrom? sum (.gap false) cs
      else if c.isDigit then readFrom? sum (.whole (c.toNat - 48)) cs
      else none

/-- The sum of all parts of a text; a lone `0` needs no unit. -/
def parse? (s : String) : Option Duration := do
  if s == "0" then some zero
  else
    let (seconds, nanos) ← readFrom? (0, 0) (.gap true) s.toList
    of? seconds nanos

end BurnRate.Duration
