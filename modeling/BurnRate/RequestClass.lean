/-!
Symbolic targets for the latency of requests, and the histogram bucket that each stands for.
-/

namespace BurnRate

inductive RequestClass where
  | fastPlusPlus
  | fastPlus
  | fast
  | ok
  | slow
  | slowPlus
  | slowPlusPlus
  deriving DecidableEq, Repr

namespace RequestClass

def all : List RequestClass :=
  [fastPlusPlus, fastPlus, fast, ok, slow, slowPlus, slowPlusPlus]

def text : RequestClass → String
  | fastPlusPlus => "fast++"
  | fastPlus => "fast+"
  | fast => "fast"
  | ok => "ok"
  | slow => "slow"
  | slowPlus => "slow+"
  | slowPlusPlus => "slow++"

/-- Upper bound of the bucket, in seconds. -/
def bucket : RequestClass → String
  | fastPlusPlus => "0.1"
  | fastPlus => "0.25"
  | fast => "0.5"
  | ok => "1"
  | slow => "2.5"
  | slowPlus => "5"
  | slowPlusPlus => "10"

/-- The class with a given name. -/
def ofText? (s : String) : Option RequestClass := all.find? (·.text == s)

theorem ofText?_text (c : RequestClass) : ofText? c.text = some c := by
  cases c <;> decide

end RequestClass

end BurnRate
