import BurnRate.Duration.Printer
import BurnRate.Expression.Flaw
import BurnRate.Objective
import BurnRate.RequestClass
import BurnRate.Window

/-!
Service level objectives of three kinds, and the rules that each is recorded by.
-/

namespace BurnRate

/-- The kinds of objective. -/
inductive Kind where
  | batch
  | errorRate
  | latency
  deriving DecidableEq, Repr

namespace Kind

def all : List Kind := [batch, errorRate, latency]

def name : Kind → String
  | batch => "BatchProcessingSLO"
  | errorRate => "ErrorRateSLO"
  | latency => "LatencySLO"

theorem name_injective {k l : Kind} (h : k.name = l.name) : k = l := by
  cases k <;> cases l <;> simp_all [name]

end Kind

/-- A large job that has to be finished by a deadline. The error is the share of the throughput
needed for that which the job fails to reach. -/
structure BatchSlo extends Objective where
  deadline : Duration
  /-- The largest volume that one run is expected to process. -/
  volume : String
  throughput : String
  deriving DecidableEq

/-- A bound on the share of requests that fail. -/
structure ErrorRateSlo extends Objective where
  errors : String
  total : String
  deriving DecidableEq

/-- A bound on the share of requests that are slower than their class allows. -/
structure LatencySlo extends Objective where
  requestClass : RequestClass
  total : String
  observation : String
  deriving DecidableEq

inductive Slo where
  | batch (s : BatchSlo)
  | errorRate (s : ErrorRateSlo)
  | latency (s : LatencySlo)
  deriving DecidableEq

namespace Series

def batchVolume : String := "job:slo_batch_volume:max"
def batchThroughputTarget : String := "job:slo_batch_throughput_target:max"
def batchThroughput : String := "job:slo_batch_throughput:interval"
def batchError : String := "job:slo_batch_error:interval"
def errors : String := "job:slo_error_rate_errors:rate"
def errorRateTotal : String := "job:slo_error_rate_total:rate"
def latencyTotal : String := "job:slo_latency_total:rate"
def latencyObservation : String := "job:slo_latency_observation:rate"

end Series

/-- Placeholder of the bound of the histogram bucket. -/
def bucketName : String := "le"

/-- Parameters as they are recorded on the marker. -/
def params (pairs : List (String × String)) : Labels :=
  .ofList (pairs.map fun (k, v) => (k, Text.trim v))

/-- Records an expression once per alert window, in a series named for the window. -/
def recordPerWindow (series : String) (labels : Labels) (expr : String)
    (extra : List (String × String)) : Except RenderError (List Rule) :=
  alertWindows.mapM fun w => do
    return .recording (series ++ w) labels (← renderExpression (Text.trim expr) (valuesAt extra w))

namespace BatchSlo

/-- Operands that a division binds to as a whole. -/
def isOperand (s : String) : Bool :=
  !s.isEmpty && s.toList.all fun c => c.isAlphanum || c == '_' || c == ':' || c == '.'

def operand (volume : String) : String :=
  if isOperand volume then volume else "(" ++ volume ++ ")"

/-- The throughput that clears the volume within the deadline. -/
def targetText (s : BatchSlo) : String :=
  operand (Text.trim s.volume) ++ " / " ++ toString s.deadline.seconds

def params (s : BatchSlo) : Labels :=
  BurnRate.params
    [("deadline", s.deadline.text), ("volume", s.volume), ("throughput", s.throughput)]

def rules (s : BatchSlo) : List Rule :=
  s.toObjective.rules Kind.batch.name s.params
    ++ [.recording Series.batchVolume (s.join ∅) (Text.trim s.volume),
      .recording Series.batchThroughputTarget (s.join ∅) s.targetText,
      .recording Series.batchThroughput (s.join ∅) (Text.trim s.throughput)]

end BatchSlo

namespace ErrorRateSlo

def params (s : ErrorRateSlo) : Labels :=
  BurnRate.params [("errors", s.errors), ("total", s.total)]

def rules (s : ErrorRateSlo) : Except RenderError (List Rule) := do
  let errors ← recordPerWindow Series.errors (s.join ∅) s.errors []
  let total ← recordPerWindow Series.errorRateTotal (s.join ∅) s.total []
  return s.toObjective.rules Kind.errorRate.name s.params ++ errors ++ total

end ErrorRateSlo

namespace LatencySlo

def params (s : LatencySlo) : Labels :=
  BurnRate.params [("request_class", s.requestClass.text), ("total", s.total),
    ("observation", s.observation)]

/-- Labels of the series that requests of the class are counted in. -/
def seriesLabels (s : LatencySlo) : Labels :=
  s.join (.ofList [("request_class", s.requestClass.text)])

def rules (s : LatencySlo) : Except RenderError (List Rule) := do
  let total ← recordPerWindow Series.latencyTotal s.seriesLabels s.total []
  let observation ← recordPerWindow Series.latencyObservation s.seriesLabels s.observation
    [(bucketName, s.requestClass.bucket)]
  return s.toObjective.rules Kind.latency.name s.params ++ total ++ observation

end LatencySlo

namespace Slo

def objective : Slo → Objective
  | batch s => s.toObjective
  | errorRate s => s.toObjective
  | latency s => s.toObjective

def kind : Slo → Kind
  | batch _ => .batch
  | errorRate _ => .errorRate
  | latency _ => .latency

def name (s : Slo) : String := s.objective.name

/-- The rules that record an objective, those of every objective first. -/
def rules : Slo → Except RenderError (List Rule)
  | batch s => .ok s.rules
  | errorRate s => s.rules
  | latency s => s.rules

end Slo

end BurnRate
