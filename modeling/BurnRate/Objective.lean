import BurnRate.Decimal.Numeral
import BurnRate.Rule
import BurnRate.Text.Blank

/-!
What every service level objective has, and the three rules that come from it.

The marker records the parameters an objective was built from. The budget is what burn rates are
compared with. The labels of the user stand on a series of their own.
-/

namespace BurnRate

structure Objective where
  name : String
  /-- Share of events that may fail. -/
  budget : Float
  labels : Labels := ∅
  annotations : Labels := ∅
  deriving DecidableEq

namespace Series

/-- The marker of a definition. -/
def definition : String := "job:slo_definition:none"

def errorBudget : String := "job:slo_error_budget:ratio"

/-- The labels of the user. -/
def labelsInfo : String := "job:slo_labels_info:none"

/-- Prefix of the error ratios, which windows follow. -/
def errorRatio : String := "job:slo_error:ratio"

end Series

/-- Labels that start with a letter or an underscore and go on with these or digits. -/
def isLabelName (s : String) : Bool :=
  match s.toList with
  | [] => false
  | c :: cs => (c.isAlpha || c == '_') && cs.all fun c => c.isAlphanum || c == '_'

namespace Objective

/-- Why the shared fields are refused. -/
inductive Fault where
  | emptyName
  | budget (budget : Float)
  | labelName (name : String)
  | annotationName (name : String)
  deriving Repr

def Fault.text : Fault → String
  | emptyName => "name must not be empty"
  | budget b => "budget must be in [0, 1), got " ++ Decimal.numeral b
  | labelName name => "invalid label name '" ++ name ++ "'"
  | annotationName name => "invalid annotation name '" ++ name ++ "'"

/-- The budget as an expression. -/
def budgetText (o : Objective) : String := Decimal.numeral o.budget

/-- Labels under which a series of this objective is found. -/
def join (o : Objective) (labels : Labels) : Labels := labels.insert "name" o.name

/-- The labels of the marker: annotations, then parameters, then what identifies the objective. -/
def markerLabels (o : Objective) (template : String) (params : Labels) : Labels :=
  (o.annotations.union params).insertAll
    [("template", template), ("budget", o.budgetText), ("name", o.name)]

/-- The rules that every objective has. -/
def rules (o : Objective) (template : String) (params : Labels) : List Rule :=
  [.recording Series.definition (o.markerLabels template params) "1",
    .recording Series.errorBudget (o.join ∅) o.budgetText,
    .recording Series.labelsInfo (o.join o.labels) "1"]

/-- The first fault of the shared fields. -/
def fault? (o : Objective) : Option Fault :=
  if Text.isAllBlank o.name then some .emptyName
  else if !(Decimal.Binary.ofFloat o.budget).isFraction then some (.budget o.budget)
  else
    (o.labels.keys.find? (!isLabelName ·)).map .labelName
      <|> (o.annotations.keys.find? (!isLabelName ·)).map .annotationName

end Objective

end BurnRate
