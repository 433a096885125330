import BurnRate.Alert
import BurnRate.Registry
import BurnRate.RuleFile

/-!
Collecting objectives into one group of rules: those of each objective in the order they were
added, then those of the kinds, then the alerts.
-/

namespace BurnRate

inductive PipelineError where
  | duplicateSlo (name : String)
  | expansion (e : ExpansionError)
  | serialization (message : String)
  deriving DecidableEq, Repr

namespace PipelineError

def text : PipelineError → String
  | duplicateSlo name => "SLO '" ++ name ++ "' registered more than once"
  | expansion e => "template error: " ++ e.text
  | serialization message => "failed to serialize rule groups: " ++ message

end PipelineError

/-- Name of a group when none is given. -/
def defaultGroupName : String := "slo-builder"

structure Pipeline where
  name : String
  rules : List Rule := []
  /-- Names of the objectives so far; no two are equal. -/
  registered : List String := []
  nodup : registered.Nodup := by simp

namespace Pipeline

/-- Adds the rules of an objective whose name is new. -/
def register (p : Pipeline) (s : Slo) : Except PipelineError Pipeline :=
  if h : s.name ∈ p.registered then .error (.duplicateSlo s.name)
  else
    match s.rules with
    | .error e => .error (.expansion (.render e))
    | .ok rules => .ok
      { p with
        rules := p.rules ++ rules
        registered := s.name :: p.registered
        nodup := List.nodup_cons.2 ⟨h, p.nodup⟩ }

/-- Adds objectives up to the first that fails, and tells its error. -/
def registerEach (p : Pipeline) : List Slo → Pipeline × Except PipelineError Unit
  | [] => (p, .ok ())
  | s :: ss =>
    match p.register s with
    | .ok q => q.registerEach ss
    | .error e => (p, .error e)

/-- Adds all objectives, unless one fails. -/
def registerAll (p : Pipeline) (ss : List Slo) : Except PipelineError Pipeline :=
  match p.registerEach ss with
  | (q, .ok ()) => .ok q
  | (_, .error e) => .error e

def size (p : Pipeline) : Nat := p.registered.length

def isEmpty (p : Pipeline) : Bool := p.registered.isEmpty

/-- The group of rules. The rules of all kinds of the registry are in it, used or not. -/
def build (p : Pipeline) (r : Registry) : RuleGroups :=
  ⟨[⟨p.name, p.rules ++ r.ratioRules ++ alertRules⟩]⟩

end Pipeline

end BurnRate
