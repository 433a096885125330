import BurnRate.Definition.Body
import BurnRate.Proofs.DefinitionMarker
import BurnRate.Proofs.RuleFileRoundTrip

/-!
Durations that are written are read back as they were.

The marker of a batch objective holds its deadline, and a rule file holds how long each alert has
to last. Both texts are read as the deadline of a definition is.
-/

namespace BurnRate

open Yaml (Value)

/-! ### Fields of a document -/

namespace Yaml.Value

/-- The value behind a text as key. -/
def field? (key : String) : Value → Option Value
  | .mapping fields => fields.findSome? fun (k, v) =>
    match k with
    | .text k => if k = key then some v else none
    | _ => none
  | _ => none

def items? : Value → Option (List Value)
  | .sequence items => some items
  | _ => none

lemma field?_cons (key k : String) (v : Value) (fields : List (Value × Value)) :
    field? key (.mapping ((.text k, v) :: fields)) =
      if k = key then some v else field? key (.mapping fields) := by
  rw [field?, List.findSome?_cons]
  dsimp only
  by_cases hk : k = key
  · rw [if_pos hk, if_pos hk]
  · rw [if_neg hk, if_neg hk]
    rfl

end Yaml.Value

/-- How long an alert has to hold; a recorded series has nothing to hold. -/
def Rule.hold? : Rule → Option Duration
  | recording .. => none
  | alerting _ hold _ _ => some hold

/-- What the rules of a group have in their field `for`, read as a deadline is. -/
def holdsOfGroup? (group : Value) : Option (List (Option (Except Definition.Mismatch Duration))) := do
  let rules ← (← group.field? "rules").items?
  return rules.map fun rule => (rule.field? "for").map Definition.durationOf

/-- The same for all groups of a rule file. -/
def holdsOf? (file : String) :
    Option (List (List (Option (Except Definition.Mismatch Duration)))) := do
  let document ← Value.ofText? file
  (← (← document.field? "groups").items?).mapM holdsOfGroup?

/-- The label of the marker that holds the deadline. -/
def deadlineLabel : String := "deadline"

/-- The deadline as the marker among the rules records it. -/
def BatchSlo.recordedDeadline? (s : BatchSlo) : Option String :=
  (s.rules.find? (·.name == Series.definition)).bind (·.labels.get? deadlineLabel)

/-! ### Deadlines on the marker -/

/-- A printed duration reads as a deadline. -/
lemma durationOf_text (d : Duration) : Definition.durationOf (.text d.text) = .ok d := by
  rw [Definition.durationOf, d.parse?_text]

/-- The marker holds the text of the deadline, whatever the annotations are. -/
lemma BatchSlo.recordedDeadline?_eq (s : BatchSlo) :
    s.recordedDeadline? = some s.deadline.text := by
  have hmarker : s.rules.find? (·.name == Series.definition) = some (Slo.batch s).marker := rfl
  have hgiven : (Slo.batch s).given.lookup deadlineLabel = some s.deadline.text := rfl
  have hparam : (Slo.batch s).params.get? deadlineLabel = some s.deadline.text := by
    rw [Slo.get?_params hgiven, s.deadline.trim_text]
  rw [recordedDeadline?, hmarker]
  exact s.toObjective.get?_markerLabels_param _ (Slo.notMem_identityLabels hgiven) hparam

/-! ### Alerts in a rule file -/

lemma Labels.field?_documentField (l : Labels) {key : String} (hkey : key ≠ "labels")
    (fields : List (Value × Value)) :
    Value.field? key (.mapping (l.documentField ++ fields)) =
      Value.field? key (.mapping fields) := by
  unfold documentField
  split
  · rfl
  · rw [List.singleton_append, Value.field?_cons, if_neg hkey.symm]

/-- The field `for` of a rule holds the text of what the rule has to hold. -/
lemma Rule.field?_for (r : Rule) :
    r.document.field? "for" = r.hold?.map fun hold => .text hold.text := by
  have hexpr : ("expr" : String) ≠ "for" := by decide
  cases r with
  | recording record labels expr =>
    have hrecord : ("record" : String) ≠ "for" := by decide
    rw [document, textField, textField, List.cons_append, Value.field?_cons, if_neg hrecord,
      labels.field?_documentField (by decide), Value.field?_cons, if_neg hexpr]
    rfl
  | alerting alert hold labels expr =>
    have halert : ("alert" : String) ≠ "for" := by decide
    rw [document, textField, textField, List.cons_append, Value.field?_cons, if_neg halert,
      List.cons_append, Value.field?_cons, if_pos rfl]
    rfl

/-- What the rules of a group have to hold is found in the document of the group. -/
lemma RuleGroup.holdsOfGroup?_document (g : RuleGroup) :
    holdsOfGroup? g.document = some (g.rules.map fun r => r.hold?.map .ok) := by
  have hname : ("name" : String) ≠ "rules" := by decide
  have hrules : g.document.field? "rules" = some (.sequence (g.rules.map Rule.document)) := by
    rw [document, textField, Value.field?_cons, if_neg hname, Value.field?_cons, if_pos rfl]
  have hhold (r : Rule) :
      (r.document.field? "for").map Definition.durationOf = r.hold?.map .ok := by
    rw [r.field?_for, Option.map_map]
    exact Option.map_congr fun hold _ => durationOf_text hold
  rw [holdsOfGroup?, hrules]
  change some ((g.rules.map Rule.document).map _) = _
  rw [List.map_map]
  exact congrArg some (List.map_congr_left fun r _ => hhold r)

/-- What all rules have to hold is found in the rule file. -/
lemma RuleGroups.holdsOf?_toYaml (gs : RuleGroups) :
    holdsOf? gs.toYaml = some (gs.groups.map fun g => g.rules.map fun r => r.hold?.map .ok) := by
  have hfits : gs.toBlock.Fits Yaml.maxDepth := gs.fits.mono (by decide)
  have hrecord : ∀ s, gs.toBlock ≠ .text s := by
    intro s h
    cases h
  have hdocument : Value.ofText? gs.toYaml = some gs.document := by
    rw [toYaml, Yaml.Value.ofText?_write hrecord hfits, value_toBlock]
  have hgroups : gs.document.field? "groups" =
      some (.sequence (gs.groups.map RuleGroup.document)) := by
    rw [document, Value.field?_cons, if_pos rfl]
  have hread : holdsOf? gs.toYaml = (gs.groups.map RuleGroup.document).mapM holdsOfGroup? := by
    simp only [holdsOf?, hdocument, hgroups, Option.bind_eq_bind, Option.bind_some, Value.items?]
  have hgroup : holdsOfGroup? ∘ RuleGroup.document =
      fun g => pure (g.rules.map fun r => r.hold?.map .ok) :=
    funext RuleGroup.holdsOfGroup?_document
  rw [hread, List.mapM_map, hgroup, List.mapM_pure]
  rfl

/-- **Durations** are read back as they were: the deadline that the marker of a batch objective
records, which tells the deadline, and how long the alerts of a rule file have to hold. No number on
the way is too large for the reader. -/
theorem durations_readBack :
    (∀ s : BatchSlo, ∃ text, s.recordedDeadline? = some text ∧
      Definition.durationOf (.text text) = .ok s.deadline) ∧
      (∀ s t : BatchSlo, s.recordedDeadline? = t.recordedDeadline? ↔ s.deadline = t.deadline) ∧
      ∀ gs : RuleGroups, holdsOf? gs.toYaml =
        some (gs.groups.map fun g => g.rules.map fun r => r.hold?.map .ok) := by
  refine ⟨fun s => ?_, fun s t => ?_, RuleGroups.holdsOf?_toYaml⟩
  · exact ⟨s.deadline.text, s.recordedDeadline?_eq, durationOf_text s.deadline⟩
  · rw [s.recordedDeadline?_eq, t.recordedDeadline?_eq, Option.some_inj]
    exact ⟨Duration.text_injective, fun h => by rw [h]⟩

end BurnRate
