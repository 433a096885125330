import BurnRate.Proofs.Substitution
import BurnRate.Registry

/-!
The rules of the kinds are expanded from templates.

What turns the series of a kind into error ratios is written once, with a placeholder for the window.
Its expansion over the alert windows is what a registry has of the kind.
-/

namespace BurnRate

open Expression

namespace Kind

/-- The error ratio of a kind as an expression, with a placeholder for the window. -/
def ratioSource : Kind → String
  | batch => "avg_over_time(" ++ Series.batchError ++ "[\x7b\x7b window \x7d\x7d])"
  | errorRate =>
    "((job:slo_error_rate_errors:rate\x7b\x7b window \x7d\x7d) or "
      ++ "(0 * job:slo_error_rate_total:rate\x7b\x7b window \x7d\x7d)) / "
      ++ "job:slo_error_rate_total:rate\x7b\x7b window \x7d\x7d"
  | latency =>
    "(job:slo_latency_total:rate\x7b\x7b window \x7d\x7d - "
      ++ "job:slo_latency_observation:rate\x7b\x7b window \x7d\x7d) / "
      ++ "job:slo_latency_total:rate\x7b\x7b window \x7d\x7d"

/-- The rule that is expanded over the windows. -/
def ratioTemplate (k : Kind) : Rule :=
  .recording "job:slo_error:ratio\x7b\x7b window \x7d\x7d" ∅ k.ratioSource

/-- What a kind records without a window, in front of its ratios. -/
def errorRules : Kind → List Rule
  | batch => [.recording Series.batchError ∅ ("1.0 - clamp_max(" ++ Series.batchThroughput ++ " / "
      ++ Series.batchThroughputTarget ++ ", 1.0)")]
  | errorRate => []
  | latency => []

/-- All rules of a kind, as they are made of its template. -/
def expandRules (k : Kind) : Except ExpansionError (List Rule) :=
  (k.ratioTemplate.expand alertWindows []).map (k.errorRules ++ ·)

/-! ### Templates as plain texts -/

def ratioName : PlainText where
  slots := [.window Series.errorRatio (by decide +kernel) (by decide +kernel)]
  last := ""
  untagged := by decide +kernel

def ratioText : Kind → PlainText
  | batch =>
    { slots := [.window ("avg_over_time(" ++ Series.batchError ++ "[") (by decide +kernel)
        (by decide +kernel)]
      last := "])"
      untagged := by decide +kernel }
  | errorRate =>
    { slots := [.window ("((" ++ Series.errors) (by decide +kernel) (by decide +kernel),
        .window (") or (0 * " ++ Series.errorRateTotal) (by decide +kernel) (by decide +kernel),
        .window (")) / " ++ Series.errorRateTotal) (by decide +kernel) (by decide +kernel)]
      last := ""
      untagged := by decide +kernel }
  | latency =>
    { slots := [.window ("(" ++ Series.latencyTotal) (by decide +kernel) (by decide +kernel),
        .window (" - " ++ Series.latencyObservation) (by decide +kernel) (by decide +kernel),
        .window (") / " ++ Series.latencyTotal) (by decide +kernel) (by decide +kernel)]
      last := ""
      untagged := by decide +kernel }

lemma source_ratioName : ratioName.source = "job:slo_error:ratio\x7b\x7b window \x7d\x7d" := by
  decide +kernel

lemma source_ratioText (k : Kind) : k.ratioText.source = k.ratioSource := by
  cases k <;> decide +kernel

lemma names_ratioText (k : Kind) : k.ratioText.names ⊆ [windowName] := by
  cases k <;> decide

lemma filled_ratioName (w : String) : (ratioName.filled fun _ => w) = Series.errorRatio ++ w := by
  simp [ratioName, PlainText.filled, Slot.window]

/-- Behind its rules without a window, a kind has a ratio for each alert window. -/
lemma ratioRules_eq (k : Kind) :
    k.ratioRules = k.errorRules ++ alertWindows.map fun w =>
      .recording (Series.errorRatio ++ w) ∅ (k.ratioText.filled fun _ => w) := by
  cases k <;>
    simp [ratioRules, ratioPerWindow, errorRules, ratioText, PlainText.filled, Slot.window,
      String.append_assoc]

/-- **Error ratios are expanded from templates**: for every kind, the expansion over the alert
windows succeeds and makes the rules that the kind has. -/
theorem expandRules_eq (k : Kind) : k.expandRules = .ok k.ratioRules := by
  have hdistinct : alertWindows.Nodup := by decide
  have hexpand := k.ratioTemplate.expand_plain ratioName k.ratioText source_ratioName.symm
    k.source_ratioText.symm (List.Subset.refl _) k.names_ratioText hdistinct []
  rw [expandRules, hexpand, ratioRules_eq]
  simp only [filled_ratioName]
  rfl

end Kind

/-- The rules of a registry are those that its kinds make, one kind after the other. -/
theorem Registry.expandRules_eq (r : Registry) :
    (r.kinds.mapM Kind.expandRules).map List.flatten = .ok r.ratioRules := by
  have hall : Kind.expandRules = fun k => pure k.ratioRules := funext Kind.expandRules_eq
  rw [hall, List.mapM_pure, ratioRules, List.flatMap_def]
  rfl

end BurnRate
