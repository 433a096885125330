import BurnRate.Objective

/-!
Alerts on the error budget of all objectives.

A budget burns too fast when the error ratio is above a multiple of it over a long window and
still over a short one. Each alert has two such pairs of windows.
-/

namespace BurnRate

/-- A multiple of the budget, and the windows over which it is exceeded. -/
structure Burn where
  factor : String
  long : String
  short : String

namespace Burn

/-- The error ratio over a window is above the multiple of the budget. -/
def above (factor window : String) : String :=
  "  " ++ Series.errorRatio ++ window ++ " > on(name) group_left() (" ++ factor ++ " * "
    ++ Series.errorBudget ++ ")\n"

def condition (b : Burn) : String :=
  "(\n" ++ above b.factor b.long ++ "and\n" ++ above b.factor b.short ++ ")"

def alert (name : String) (hold : Duration) (a b : Burn) : Rule :=
  .alerting name hold (.ofList [("severity", "ticket")])
    (a.condition ++ "\nor\n" ++ b.condition ++ "\n")

end Burn

/-- The alerts that every rule file ends with. -/
def alertRules : List Rule :=
  [Burn.alert "SLOErrorBudgetFastBurn" (.ofParts 60 0)
      ⟨"14.4", "1h", "5m"⟩ ⟨"6.0", "6h", "30m"⟩,
    Burn.alert "SLOErrorBudgetSlowBurn" (.ofParts 3600 0)
      ⟨"3.0", "1d", "2h"⟩ ⟨"1.0", "3d", "6h"⟩]

end BurnRate
