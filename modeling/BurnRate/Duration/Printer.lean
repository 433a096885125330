import BurnRate.Duration.Basic

/-!
Durations as text, for instance `1year 2months 3days 4h 5m 6s 7ms 8us 9ns`.

A year is 365.25 days and a month the twelfth part of it. Parts that are zero are left out.
-/

namespace BurnRate.Duration

/-- A number with its unit. -/
structure Part where
  amount : Nat
  unit : String
  deriving DecidableEq, Repr

/-- Years, months and days are counted in words; their plural ends in `s`. -/
def Part.counted (amount : Nat) (unit : String) : Part :=
  ⟨amount, if amount = 1 then unit else unit ++ "s"⟩

/-- All parts, from years to nanoseconds, those that are zero included. -/
def parts (d : Duration) : List Part :=
  let inYear := d.seconds % secondsPerYear
  let inMonth := inYear % secondsPerMonth
  let inDay := inMonth % secondsPerDay
  [ .counted (d.seconds / secondsPerYear) "year"
  , .counted (inYear / secondsPerMonth) "month"
  , .counted (inMonth / secondsPerDay) "day"
  , ⟨inDay / 3600, "h"⟩
  , ⟨inDay % 3600 / 60, "m"⟩
  , ⟨inDay % 60, "s"⟩
  , ⟨d.nanos / 1000000, "ms"⟩
  , ⟨d.nanos / 1000 % 1000, "us"⟩
  , ⟨d.nanos % 1000, "ns"⟩ ]

def Part.text (p : Part) : String := toString p.amount ++ p.unit

/-- The parts that are not zero, between single spaces; `0s` if there is none. -/
def text (d : Duration) : String :=
  match d.parts.filter (·.amount != 0) with
  | [] => "0s"
  | ps => " ".intercalate (ps.map Part.text)

end BurnRate.Duration
