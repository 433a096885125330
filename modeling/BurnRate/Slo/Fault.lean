import BurnRate.Slo

/-!
Checks of objectives before rules are made of them.
-/

namespace BurnRate.Slo

/-- Why an objective is refused. -/
inductive Fault where
  | objective (fault : Objective.Fault)
  | shortDeadline
  | emptyField (field : String)
  | flawedField (field : String) (flaw : Expression.Flaw)
  deriving Repr

def Fault.text : Fault → String
  | objective fault => fault.text
  | shortDeadline => "deadline must be at least 1s"
  | emptyField field => field ++ " must not be empty"
  | flawedField field flaw => field ++ ": " ++ flaw.text

/-- Checks a field that holds an expression. -/
def checkField (field expr : String) (allowed required : List String) : Except Fault Unit :=
  if Text.isAllBlank expr then .error (.emptyField field)
  else
    (do
      Expression.checkAllowed expr allowed
      Expression.checkRequired expr required).mapError (.flawedField field)

def checkObjective (o : Objective) : Except Fault Unit :=
  match o.fault? with
  | some fault => .error (.objective fault)
  | none => .ok ()

/-- Finds the first fault: of the shared fields, then of the kind's own fields in order. -/
def validate : Slo → Except Fault Unit
  | batch s => do
    checkObjective s.toObjective
    if s.deadline.seconds = 0 then .error .shortDeadline
    else
      checkField "volume" s.volume [] []
      checkField "throughput" s.throughput [] []
  | errorRate s => do
    checkObjective s.toObjective
    checkField "errors" s.errors [windowName] [windowName]
    checkField "total" s.total [windowName] [windowName]
  | latency s => do
    checkObjective s.toObjective
    checkField "total" s.total [windowName] [windowName]
    checkField "observation" s.observation [windowName, bucketName] [windowName, bucketName]

end BurnRate.Slo
