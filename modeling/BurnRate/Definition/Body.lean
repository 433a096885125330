import BurnRate.Definition.Mismatch
import BurnRate.Duration.Parser
import BurnRate.Slo

/-!
From the body of a definition to an objective.

The fields of the kind are read first, in the order of the body, then those that are missing are
noticed, then the shared fields are read in the order of the body. Other fields are ignored.
-/

namespace BurnRate.Definition

open Yaml (Value)

/-- A text; local tags have been dealt with. -/
def textOf : Value → Except Mismatch String
  | .text s => .ok s
  | v => .error (.type v "a string")

def durationOf : Value → Except Mismatch Duration
  | .text s =>
    match Duration.parse? s with
    | some d => .ok d
    | none => .error (.duration s)
  | v => .error (.type v "a duration")

/-- A class is named by a text, or by a tag on nothing. -/
def requestClassOf : Value → Except Mismatch RequestClass
  | .text s => named s
  | .tagged tag v => do
    let c ← named tag
    match v.untagged with
    | .null => return c
    | v => .error (.type v "unit")
  | v => .error (.type v "a Value::Tagged enum")
where
  named (s : String) : Except Mismatch RequestClass :=
    match RequestClass.ofText? s with
    | some c => .ok c
    | none => .error (.requestClass s)

def numberOf : Value → Except Mismatch Float
  | .int n => .ok (if n < 0 then -Decimal.nearest n.natAbs 0 else Decimal.nearest n.natAbs 0)
  | .float x => .ok x
  | v => .error (.type v "f64")

def labelsOf : Value → Except Mismatch Labels
  | .mapping fields => do
    let pairs ← fields.mapM fun (k, v) => do return (← textOf k, ← textOf v)
    return .ofList pairs
  | v => .error (.type v "a map")

/-- The fields of a body as far as they have been read. -/
structure Parts where
  deadline? : Option Duration := none
  requestClass? : Option RequestClass := none
  texts : List (String × String) := []
  /-- The other fields, the last one first. -/
  others : List (String × Value) := []

/-- How a field that belongs to one kind is read. -/
inductive OwnField where
  | deadline
  | requestClass
  | text (name : String)

/-- The field of a kind that a key stands for. -/
def ownField? (k : Kind) (key : String) : Option OwnField :=
  match k, key with
  | .batch, "deadline" => some .deadline
  | .batch, "volume" | .batch, "throughput" => some (.text key)
  | .errorRate, "errors" | .errorRate, "total" => some (.text key)
  | .latency, "request_class" | .latency, "requestClass" => some .requestClass
  | .latency, "total" | .latency, "observation" => some (.text key)
  | _, _ => none

namespace Parts

/-- Reads one field. -/
def add (k : Kind) (p : Parts) (field : Value × Value) : Except Mismatch Parts := do
  match field.1.untagged with
  | .text key =>
    match ownField? k key with
    | some .deadline =>
      if p.deadline?.isSome then .error (.duplicate key)
      else return { p with deadline? := ← durationOf field.2.untagged }
    | some .requestClass =>
      if p.requestClass?.isSome then .error (.duplicate "request_class")
      else return { p with requestClass? := ← requestClassOf field.2 }
    | some (.text name) =>
      if (p.texts.lookup name).isSome then .error (.duplicate name)
      else return { p with texts := (name, ← textOf field.2.untagged) :: p.texts }
    | none =>
      if field.2.hasTag then .error .tag
      else return { p with others := (key, field.2) :: p.others }
  | v => .error (.type v "field identifier")

def text (p : Parts) (name : String) : Except Mismatch String :=
  match p.texts.lookup name with
  | some s => .ok s
  | none => .error (.missing name)

end Parts

/-- The shared fields as far as they have been read. -/
structure Shared where
  name? : Option String := none
  budget? : Option Float := none
  labels? : Option Labels := none
  annotations? : Option Labels := none

namespace Shared

def add (s : Shared) (field : String × Value) : Except Mismatch Shared := do
  match field with
  | ("name", v) =>
    if s.name?.isSome then .error (.duplicate "name") else return { s with name? := ← textOf v }
  | ("budget", v) =>
    if s.budget?.isSome then .error (.duplicate "budget")
    else return { s with budget? := ← numberOf v }
  | ("labels", v) =>
    if s.labels?.isSome then .error (.duplicate "labels")
    else return { s with labels? := ← labelsOf v }
  | ("annotations", v) =>
    if s.annotations?.isSome then .error (.duplicate "annotations")
    else return { s with annotations? := ← labelsOf v }
  | _ => return s

end Shared

def required {α : Type} (field : String) : Option α → Except Mismatch α
  | some a => .ok a
  | none => .error (.missing field)

/-- The shared fields among the others. -/
def objectiveOf (p : Parts) : Except Mismatch Objective := do
  let s ← p.others.reverse.foldlM Shared.add {}
  return { name := ← required "name" s.name?, budget := ← required "budget" s.budget?,
           labels := s.labels?.getD ∅, annotations := s.annotations?.getD ∅ }

/-- The fields of a body; nothing is a body without fields. -/
def fieldsOf (k : Kind) (body : Value) : Except Mismatch (List (Value × Value)) :=
  match body.untagged with
  | .mapping fields => .ok fields
  | .null => .ok []
  | v => .error (.type v (match k with
    | .batch => "struct BatchProcessingSlo"
    | .errorRate => "struct ErrorRateSlo"
    | .latency => "struct LatencySlo"))

/-- The objective of a kind that a body describes. -/
def sloOf (k : Kind) (body : Value) : Except Mismatch Slo := do
  let p ← (← fieldsOf k body).foldlM (Parts.add k) {}
  match k with
  | .batch =>
    let deadline ← required "deadline" p.deadline?
    let volume ← p.text "volume"
    let throughput ← p.text "throughput"
    return .batch { ← objectiveOf p with deadline, volume, throughput }
  | .errorRate =>
    let errors ← p.text "errors"
    let total ← p.text "total"
    return .errorRate { ← objectiveOf p with errors, total }
  | .latency =>
    let requestClass ← required "request_class" p.requestClass?
    let total ← p.text "total"
    let observation ← p.text "observation"
    return .latency { ← objectiveOf p with requestClass, total, observation }

end BurnRate.Definition
