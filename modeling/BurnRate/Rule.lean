import BurnRate.Duration.Basic
import BurnRate.Labels

/-!
Rules for a monitoring system: recorded series and alerts, and the groups they are evaluated in.
-/

namespace BurnRate

inductive Rule where
  /-- A precomputed time series. -/
  | recording (record : String) (labels : Labels) (expr : String)
  /-- A condition that fires once it has held for a while. -/
  | alerting (alert : String) (hold : Duration) (labels : Labels) (expr : String)
  deriving DecidableEq, Repr

namespace Rule

/-- Name of the recorded series or of the alert. -/
def name : Rule → String
  | recording record _ _ => record
  | alerting alert _ _ _ => alert

def labels : Rule → Labels
  | recording _ labels _ => labels
  | alerting _ _ labels _ => labels

def expr : Rule → String
  | recording _ _ expr => expr
  | alerting _ _ _ expr => expr

end Rule

/-- Rules evaluated together, in order. -/
structure RuleGroup where
  name : String
  rules : List Rule
  deriving DecidableEq, Repr

/-- A whole rule file. -/
structure RuleGroups where
  groups : List RuleGroup
  deriving DecidableEq, Repr

end BurnRate
