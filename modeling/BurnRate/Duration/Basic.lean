/-!
Spans of time, to the nanosecond.
-/

namespace BurnRate

/-- Whole seconds that fit a 64 bit word, and nanoseconds below one second. -/
structure Duration where
  seconds : Nat
  nanos : Nat := 0
  seconds_lt : seconds < 0x10000000000000000 := by decide
  nanos_lt : nanos < 1000000000 := by decide
  deriving DecidableEq, Repr

namespace Duration

def zero : Duration := { seconds := 0 }

/-- The duration with these parts, if they are in range. -/
def of? (seconds nanos : Nat) : Option Duration :=
  if h : seconds < 0x10000000000000000 ∧ nanos < 1000000000 then
    some ⟨seconds, nanos, h.1, h.2⟩
  else none

/-- Any seconds and nanoseconds, reduced to the range of durations. -/
def ofParts (seconds nanos : Nat) : Duration :=
  ⟨seconds % 0x10000000000000000, nanos % 1000000000,
    Nat.mod_lt _ (by decide), Nat.mod_lt _ (by decide)⟩

def secondsPerYear : Nat := 31557600
def secondsPerMonth : Nat := 2630016
def secondsPerWeek : Nat := 604800
def secondsPerDay : Nat := 86400

end Duration

end BurnRate
