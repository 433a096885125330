import BurnRate.Expression.Render
import BurnRate.Rule

/-!
Expansion of rules over windows of time.

A rule whose name and expression have the placeholder `window` stands for one rule per window. The
first window that repeats or that the rule cannot be rendered for decides the error.
-/

namespace BurnRate

/-- The windows over which every error ratio is recorded. -/
def alertWindows : List String := ["1m", "5m", "30m", "1h", "2h", "6h", "1d", "3d", "7d", "28d"]

/-- Placeholder of the window. -/
def windowName : String := "window"

structure RenderError where
  source : String
  message : String
  deriving DecidableEq, Repr

def RenderError.text (e : RenderError) : String :=
  "failed to render '" ++ e.source ++ "': " ++ e.message

inductive ExpansionError where
  | render (e : RenderError)
  | duplicateWindow (window : String)
  deriving DecidableEq, Repr

def ExpansionError.text : ExpansionError → String
  | render e => e.text
  | duplicateWindow window => "window '" ++ window ++ "' listed more than once"

/-- Replaces the placeholders of an expression text. -/
def renderExpression (source : String) (values : Labels) : Except RenderError String :=
  (Expression.render source values).mapError fun cause => ⟨source, cause.text⟩

/-- Values of the placeholders for one window. -/
def valuesAt (extra : List (String × String)) (window : String) : Labels :=
  (Labels.ofList extra).insert windowName window

namespace Rule

/-- Replaces the placeholders in the name and in the expression. -/
def render (values : Labels) : Rule → Except RenderError Rule
  | recording record labels expr => do
    let record ← renderExpression record values
    return recording record labels (← renderExpression expr values)
  | alerting alert hold labels expr => do
    let alert ← renderExpression alert values
    return alerting alert hold labels (← renderExpression expr values)

/-- Expands a rule over windows, where those before are known. -/
def expandAfter (before : List String) (extra : List (String × String)) (rule : Rule) :
    List String → Except ExpansionError (List Rule)
  | [] => .ok []
  | w :: ws =>
    if before.contains w then .error (.duplicateWindow w)
    else do
      let r ← (rule.render (valuesAt extra w)).mapError .render
      return r :: (← expandAfter (w :: before) extra rule ws)

/-- One rule per window. Later extra values count more than earlier ones, and the window most. -/
def expand (rule : Rule) (windows : List String) (extra : List (String × String)) :
    Except ExpansionError (List Rule) :=
  expandAfter [] extra rule windows

end Rule

end BurnRate
