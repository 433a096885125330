import BurnRate.Definition.Body
import BurnRate.Definition.Document
import BurnRate.Definition.Error
import BurnRate.Registry
import BurnRate.Slo.Fault

/-!
Reading definitions: each entry of a document in turn becomes an objective that passes its checks,
and the first one that does not ends the reading.
-/

namespace BurnRate

namespace Definition

/-- The objective that an entry defines. -/
def instantiate (r : Registry) (index : Nat) (e : Entry) : Except DefinitionError Slo :=
  match r.lookup? e.template with
  | none => .error (.unknownTemplate e.template index)
  | some k =>
    match sloOf k e.body with
    | .error mismatch => .error (.body e.template index mismatch.text)
    | .ok s =>
      match s.validate with
      | .error fault => .error (.invalid s.name fault.text)
      | .ok () => .ok s

/-- The objectives of entries, the first of which has a given index. -/
def instantiateFrom (r : Registry) (index : Nat) : List Entry → Except DefinitionError (List Slo)
  | [] => .ok []
  | e :: es => do
    let s ← instantiate r index e
    return s :: (← instantiateFrom r (index + 1) es)

end Definition

/-- The objectives that a document defines. -/
def parseDefinitions (r : Registry) (document : String) : Except DefinitionError (List Slo) :=
  match Definition.Entry.allOfText? document with
  | none => .error (.document "not a list of definitions")
  | some entries => Definition.instantiateFrom r 0 entries

end BurnRate
