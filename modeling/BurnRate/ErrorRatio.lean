import BurnRate.Slo

/-!
Rules that come once per kind: they turn the series of the kind into error ratios.
-/

namespace BurnRate.Kind

/-- Records an error ratio once per alert window. -/
def ratioPerWindow (expr : String → String) : List Rule :=
  alertWindows.map fun w => .recording (Series.errorRatio ++ w) ∅ (expr w)

def ratioRules : Kind → List Rule
  | batch =>
    .recording Series.batchError ∅ ("1.0 - clamp_max(" ++ Series.batchThroughput ++ " / "
        ++ Series.batchThroughputTarget ++ ", 1.0)")
      :: ratioPerWindow fun w => "avg_over_time(" ++ Series.batchError ++ "[" ++ w ++ "])"
  | errorRate =>
    ratioPerWindow fun w =>
      let total := Series.errorRateTotal ++ w
      "((" ++ Series.errors ++ w ++ ") or (0 * " ++ total ++ ")) / " ++ total
  | latency =>
    ratioPerWindow fun w =>
      let total := Series.latencyTotal ++ w
      "(" ++ total ++ " - " ++ Series.latencyObservation ++ w ++ ") / " ++ total

end BurnRate.Kind
