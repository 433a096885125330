import BurnRate.Proofs.DurationText
import BurnRate.Proofs.JoinKey
import BurnRate.Proofs.OwnRules

/-!
The marker of a definition as a record of what an objective was built from.

Its labels determine every other rule, the labels of the user apart: parameters are recorded as the
rules use them, the text of a deadline tells the deadline, and no annotation stands in the place of
a parameter.
-/

namespace BurnRate

namespace Labels

lemma lookup_reverse {es : List (String × String)} (h : (es.map (·.1)).Nodup) (n : String) :
    es.reverse.lookup n = es.lookup n := by
  induction es with
  | nil => rfl
  | cons e es ih =>
    obtain ⟨hnew, hes⟩ := List.nodup_cons.1 h
    rw [List.reverse_cons, List.lookup_append, ih hes, lookup_cons_ite, lookup_cons_ite,
      List.lookup_nil]
    split
    · next hn =>
      rw [lookup_eq_none_iff.2 (hn ▸ hnew), Option.none_or]
    · rw [Option.or_none]

lemma nodup_keys (l : Labels) : (l.entries.map (·.1)).Nodup := by
  rw [List.Nodup, List.pairwise_map]
  exact l.increasing.imp fun hlt => String.ne_of_lt hlt

/-- Where both label sets have a key, the second decides. -/
lemma get?_union (l m : Labels) (n : String) : (l.union m).get? n = (m.get? n).or (l.get? n) := by
  rw [union, get?_insertAll, lookup_reverse m.nodup_keys]
  rfl

end Labels

/-! ### What the marker tells -/

/-- The label of the marker that holds the name of the kind. -/
def templateLabel : String := "template"

/-- The labels of the marker that no parameter and no annotation can set. -/
def identityLabels : List String := [templateLabel, budgetLabel, nameLabel]

lemma Objective.get?_markerLabels_template (o : Objective) (template : String) (params : Labels) :
    (o.markerLabels template params).get? templateLabel = some template := by
  have hname : templateLabel ≠ "name" := by decide
  have hbudget : templateLabel ≠ "budget" := by decide
  simp only [markerLabels, Labels.insertAll, List.foldl_cons, List.foldl_nil, Labels.get?_insert,
    if_neg hname, if_neg hbudget]
  rw [templateLabel, if_pos rfl]

/-- A parameter is recorded whatever the annotations are. -/
lemma Objective.get?_markerLabels_param (o : Objective) (template : String) {params : Labels}
    {k v : String} (hk : k ∉ identityLabels) (h : params.get? k = some v) :
    (o.markerLabels template params).get? k = some v := by
  simp only [identityLabels, List.mem_cons, List.not_mem_nil, or_false, not_or] at hk
  obtain ⟨htemplate, hbudget, hname⟩ := hk
  rw [markerLabels, Labels.insertAll, List.foldl_cons, List.foldl_cons, List.foldl_cons,
    List.foldl_nil, Labels.get?_insert, Labels.get?_insert, Labels.get?_insert]
  simp only [if_neg (show ¬ k = "name" from hname), if_neg (show ¬ k = "budget" from hbudget),
    if_neg (show ¬ k = "template" from htemplate), Labels.get?_union, h, Option.some_or]

lemma map_fst_trim (pairs : List (String × String)) :
    (pairs.map fun (k, v) => (k, Text.trim v)).map (·.1) = pairs.map (·.1) := by
  rw [List.map_map]
  rfl

/-- Parameters are recorded without the white space around them. -/
lemma get?_params {pairs : List (String × String)} (hnodup : (pairs.map (·.1)).Nodup)
    {k v : String} (h : pairs.lookup k = some v) : (params pairs).get? k = some (Text.trim v) := by
  rw [← map_fst_trim] at hnodup
  rw [params, Labels.get?_ofList, Labels.lookup_reverse hnodup]
  clear hnodup
  induction pairs with
  | nil => cases h
  | cons e pairs ih =>
    rw [Labels.lookup_cons_ite] at h
    rw [List.map_cons, Labels.lookup_cons_ite]
    by_cases hk : k = e.1
    · rw [if_pos hk, Option.some_inj] at h
      rw [if_pos hk, ← h]
    · rw [if_neg hk] at h
      rw [if_neg hk]
      exact ih h

lemma RequestClass.text_injective {c d : RequestClass} (h : c.text = d.text) : c = d := by
  have hread := ofText?_text c
  rw [h, ofText?_text, Option.some_inj] at hread
  exact hread.symm

lemma RequestClass.trim_text (c : RequestClass) : Text.trim c.text = c.text := by
  cases c <;> decide

namespace Slo

/-- The rule that records what an objective was built from. -/
def marker (s : Slo) : Rule :=
  .recording Series.definition (s.objective.markerLabels s.kind.name s.params) "1"

/-- The rule that records the budget. -/
def budgetRule (s : Slo) : Rule :=
  .recording Series.errorBudget (s.objective.join ∅) s.objective.budgetText

/-- The rule that records the labels of the user. -/
def labelsInfo (s : Slo) : Rule :=
  .recording Series.labelsInfo (s.objective.join s.objective.labels) "1"

/-- The parameters of an objective as they were given. -/
def given : Slo → List (String × String)
  | batch s => [("deadline", s.deadline.text), ("volume", s.volume), ("throughput", s.throughput)]
  | errorRate s => [("errors", s.errors), ("total", s.total)]
  | latency s =>
    [("request_class", s.requestClass.text), ("total", s.total), ("observation", s.observation)]

variable {s t : Slo}

lemma sharedRules_eq (s : Slo) : s.sharedRules = [s.marker, s.budgetRule, s.labelsInfo] := rfl

lemma params_eq (s : Slo) : s.params = BurnRate.params s.given := by
  cases s <;> rfl

lemma nodup_given (s : Slo) : (s.given.map (·.1)).Nodup := by
  cases s <;> simp [given]

/-- No parameter has the name of a label that identifies the objective. -/
lemma notMem_identityLabels {k v : String} (h : s.given.lookup k = some v) :
    k ∉ identityLabels := by
  intro hk
  have hnone : s.given.lookup k = none := by
    simp only [identityLabels, List.mem_cons, List.not_mem_nil, or_false] at hk
    rcases hk with rfl | rfl | rfl <;> cases s <;> rfl
  rw [hnone] at h
  cases h

lemma get?_params {k v : String} (h : s.given.lookup k = some v) :
    s.params.get? k = some (Text.trim v) := by
  rw [params_eq]
  exact BurnRate.get?_params s.nodup_given h

/-! ### Objectives with the same marker -/

lemma markerLabels_eq (h : s.marker = t.marker) (k : String) :
    (s.objective.markerLabels s.kind.name s.params).get? k =
      (t.objective.markerLabels t.kind.name t.params).get? k := by
  rw [marker, marker, Rule.recording.injEq] at h
  rw [h.2.1]

lemma name_eq_of_marker_eq (h : s.marker = t.marker) : s.objective.name = t.objective.name := by
  have hlabel := markerLabels_eq h nameLabel
  rwa [Objective.get?_markerLabels_name, Objective.get?_markerLabels_name,
    Option.some_inj] at hlabel

lemma budgetText_eq_of_marker_eq (h : s.marker = t.marker) :
    s.objective.budgetText = t.objective.budgetText := by
  have hlabel := markerLabels_eq h budgetLabel
  rwa [Objective.get?_markerLabels_budget, Objective.get?_markerLabels_budget,
    Option.some_inj] at hlabel

lemma kind_eq_of_marker_eq (h : s.marker = t.marker) : s.kind = t.kind := by
  have hlabel := markerLabels_eq h templateLabel
  rw [Objective.get?_markerLabels_template, Objective.get?_markerLabels_template,
    Option.some_inj] at hlabel
  exact Kind.name_injective hlabel

lemma trim_eq_of_marker_eq (h : s.marker = t.marker) {k v w : String}
    (hs : s.given.lookup k = some v) (ht : t.given.lookup k = some w) :
    Text.trim v = Text.trim w := by
  have hk := notMem_identityLabels hs
  have hlabel := markerLabels_eq h k
  rwa [Objective.get?_markerLabels_param _ _ hk (get?_params hs),
    Objective.get?_markerLabels_param _ _ hk (get?_params ht), Option.some_inj] at hlabel

lemma join_eq {o p : Objective} (h : o.name = p.name) (labels : Labels) :
    o.join labels = p.join labels := by
  rw [Objective.join, Objective.join, h]

lemma mapM_rules_congr {ps qs : List PerWindow}
    (h : List.Forall₂ (fun p q => p.rules = q.rules) ps qs) :
    ps.mapM PerWindow.rules = qs.mapM PerWindow.rules := by
  induction h with
  | nil => rfl
  | cons hpq _ ih => rw [List.mapM_cons, List.mapM_cons, hpq, ih]

lemma ownRules_batch_eq {a b : BatchSlo} (h : (batch a).marker = (batch b).marker) :
    (batch a).ownRules = (batch b).ownRules := by
  have hjoin : a.join ∅ = b.join ∅ := join_eq (name_eq_of_marker_eq h) ∅
  have hvolume : Text.trim a.volume = Text.trim b.volume :=
    trim_eq_of_marker_eq h (k := "volume") rfl rfl
  have hthroughput : Text.trim a.throughput = Text.trim b.throughput :=
    trim_eq_of_marker_eq h (k := "throughput") rfl rfl
  have hdeadline : a.deadline = b.deadline := by
    have htext : Text.trim a.deadline.text = Text.trim b.deadline.text :=
      trim_eq_of_marker_eq h (k := "deadline") rfl rfl
    rw [Duration.trim_text, Duration.trim_text] at htext
    exact Duration.text_injective htext
  have htarget : a.targetText = b.targetText := by
    rw [BatchSlo.targetText, BatchSlo.targetText, hvolume, hdeadline]
  simp only [ownRules, BatchSlo.ownRules, hjoin, hvolume, htarget, hthroughput]

lemma ownRules_errorRate_eq {a b : ErrorRateSlo}
    (h : (errorRate a).marker = (errorRate b).marker) :
    (errorRate a).ownRules = (errorRate b).ownRules := by
  have hjoin : a.join ∅ = b.join ∅ := join_eq (name_eq_of_marker_eq h) ∅
  have herrors : Text.trim a.errors = Text.trim b.errors :=
    trim_eq_of_marker_eq h (k := "errors") rfl rfl
  have htotal : Text.trim a.total = Text.trim b.total :=
    trim_eq_of_marker_eq h (k := "total") rfl rfl
  have hrules : (errorRate a).perWindow.mapM PerWindow.rules =
      (errorRate b).perWindow.mapM PerWindow.rules :=
    mapM_rules_congr (.cons (PerWindow.rules_congr rfl hjoin herrors rfl)
      (.cons (PerWindow.rules_congr rfl hjoin htotal rfl) .nil))
  rw [ownRules, ownRules, hrules]

lemma ownRules_latency_eq {a b : LatencySlo} (h : (latency a).marker = (latency b).marker) :
    (latency a).ownRules = (latency b).ownRules := by
  have hclass : a.requestClass = b.requestClass := by
    have htext : Text.trim a.requestClass.text = Text.trim b.requestClass.text :=
      trim_eq_of_marker_eq h (k := "request_class") rfl rfl
    rw [RequestClass.trim_text, RequestClass.trim_text] at htext
    exact RequestClass.text_injective htext
  have hlabels : a.seriesLabels = b.seriesLabels := by
    rw [LatencySlo.seriesLabels, LatencySlo.seriesLabels, hclass]
    exact join_eq (name_eq_of_marker_eq h) _
  have htotal : Text.trim a.total = Text.trim b.total :=
    trim_eq_of_marker_eq h (k := "total") rfl rfl
  have hobservation : Text.trim a.observation = Text.trim b.observation :=
    trim_eq_of_marker_eq h (k := "observation") rfl rfl
  have hextra : [(bucketName, a.requestClass.bucket)] = [(bucketName, b.requestClass.bucket)] := by
    rw [hclass]
  have hrules : (latency a).perWindow.mapM PerWindow.rules =
      (latency b).perWindow.mapM PerWindow.rules :=
    mapM_rules_congr (.cons (PerWindow.rules_congr rfl hlabels htotal rfl)
      (.cons (PerWindow.rules_congr rfl hlabels hobservation hextra) .nil))
  rw [ownRules, ownRules, hrules]

/-- The marker determines the rules of the kind. -/
lemma ownRules_eq_of_marker_eq (h : s.marker = t.marker) : s.ownRules = t.ownRules := by
  have hkind := kind_eq_of_marker_eq h
  cases s with
  | batch a =>
    cases t with
    | batch b => exact ownRules_batch_eq h
    | errorRate b => cases hkind
    | latency b => cases hkind
  | errorRate a =>
    cases t with
    | batch b => cases hkind
    | errorRate b => exact ownRules_errorRate_eq h
    | latency b => cases hkind
  | latency a =>
    cases t with
    | batch b => cases hkind
    | errorRate b => cases hkind
    | latency b => exact ownRules_latency_eq h

/-! ### Rules that differ in one place -/

/-- The same error, or as many rules, which differ in one place at most. -/
inductive SameBut (i : ℕ) : Except RenderError (List Rule) → Except RenderError (List Rule) → Prop
    where
  | error (e : RenderError) : SameBut i (.error e) (.error e)
  | ok {rs rs' : List Rule} (length : rs.length = rs'.length)
      (same : ∀ j, j ≠ i → rs[j]? = rs'[j]?) : SameBut i (.ok rs) (.ok rs')

/-- Objectives with the same rules for their kind differ only where the rules of every objective
do. -/
lemma SameBut.of_own {i : ℕ} (hown : s.ownRules = t.ownRules)
    (hshared : ∀ j, j ≠ i → s.sharedRules[j]? = t.sharedRules[j]?) :
    SameBut i s.rules t.rules := by
  have hlength : s.sharedRules.length = t.sharedRules.length := rfl
  rw [rules_eq_shared_append, rules_eq_shared_append, hown]
  cases t.ownRules with
  | error e => exact .error e
  | ok own =>
    refine .ok (by rw [List.length_append, List.length_append, hlength]) fun j hj => ?_
    rw [List.getElem?_append, List.getElem?_append, hlength, hshared j hj]

/-- The objective with other shared fields. -/
def mapObjective (f : Objective → Objective) : Slo → Slo
  | batch s => .batch { s with toObjective := f s.toObjective }
  | errorRate s => .errorRate { s with toObjective := f s.toObjective }
  | latency s => .latency { s with toObjective := f s.toObjective }

def withLabels (labels : Labels) : Slo → Slo := mapObjective ({ · with labels })

def withAnnotations (annotations : Labels) : Slo → Slo := mapObjective ({ · with annotations })

lemma sameBut_of_marker_eq (h : s.marker = t.marker) : SameBut 2 s.rules t.rules := by
  have hbudget : s.budgetRule = t.budgetRule := by
    rw [budgetRule, budgetRule, join_eq (name_eq_of_marker_eq h), budgetText_eq_of_marker_eq h]
  refine .of_own (ownRules_eq_of_marker_eq h) fun j hj => ?_
  rw [sharedRules_eq, sharedRules_eq, h, hbudget]
  match j, hj with
  | 0, _ => rfl
  | 1, _ => rfl
  | j + 3, _ => rfl

lemma sameBut_withLabels (s : Slo) (labels : Labels) :
    SameBut 2 s.rules (s.withLabels labels).rules := by
  refine sameBut_of_marker_eq ?_
  cases s <;> rfl

lemma sameBut_withAnnotations (s : Slo) (annotations : Labels) :
    SameBut 0 s.rules (s.withAnnotations annotations).rules := by
  have hown : s.ownRules = (s.withAnnotations annotations).ownRules := by
    cases s <;> rfl
  refine .of_own hown fun j hj => ?_
  match j, hj with
  | 1, _ => cases s <;> rfl
  | 2, _ => cases s <;> rfl
  | j + 3, _ => rfl

/-- **The marker is a complete record**: objectives with the same marker have the same rules, or the
same error, but for the labels of the user. -/
theorem marker_determines_rules :
    -- the rules start with the marker, and the labels of the user stand in the third one
    (∀ s : Slo, s.objective.rules s.kind.name s.params = [s.marker, s.budgetRule, s.labelsInfo] ∧
      ∀ rs, s.rules = .ok rs → [s.marker, s.budgetRule, s.labelsInfo] <+: rs) ∧
    -- the marker determines all others
    (∀ s t : Slo, s.marker = t.marker → SameBut 2 s.rules t.rules) ∧
    -- labels of the user change nothing else
    (∀ (s : Slo) (labels : Labels), SameBut 2 s.rules (s.withLabels labels).rules) ∧
    -- annotations change the marker alone
    ∀ (s : Slo) (annotations : Labels),
      SameBut 0 s.rules (s.withAnnotations annotations).rules := by
  refine ⟨fun s => ⟨rfl, fun rs hrs => ?_⟩, fun s t => sameBut_of_marker_eq, sameBut_withLabels,
    sameBut_withAnnotations⟩
  obtain ⟨own, -, rfl⟩ := rules_ok_iff_own.1 hrs
  exact List.prefix_append _ _

/-- A batch objective with a volume as it is written, and labels of both kinds. -/
def nightly (volume : String) (labels annotations : Labels) : Slo :=
  .batch
    { name := "nightly", budget := 0.5, labels, annotations, deadline := .ofParts 7200 0,
      volume, throughput := "rate(rows[5m])" }

def teamLabel : Labels := .ofList [("team", "data")]

/-- An annotation that has the name of a parameter. -/
def volumeNote : Labels := .ofList [("volume", "rows")]

/-- White space around a parameter, an annotation of its name and labels of the user leave no trace
on the marker. -/
theorem nightly_sameBut :
    (nightly "10" ∅ ∅).marker = (nightly " 10\n" teamLabel volumeNote).marker ∧
      SameBut 2 (nightly "10" ∅ ∅).rules (nightly " 10\n" teamLabel volumeNote).rules := by
  let s := nightly "10" ∅ ∅
  have htrim : Text.trim " 10\n" = Text.trim "10" := by decide +kernel
  have hunion : volumeNote.union s.params = (∅ : Labels).union s.params := by
    refine Labels.ext_get? fun n => ?_
    rw [Labels.get?_union, Labels.get?_union, volumeNote, Labels.get?_ofList]
    by_cases hn : n = "volume"
    · subst hn
      rw [get?_params (s := s) (v := "10") rfl, Option.some_or, Option.some_or]
    · rw [List.reverse_singleton, Labels.lookup_cons_ite, if_neg hn]
      rfl
  have hparams : (nightly " 10\n" teamLabel volumeNote).params = s.params := by
    simp only [params_eq, nightly, given, BurnRate.params, List.map_cons, htrim, s]
  have hmarker : s.marker = (nightly " 10\n" teamLabel volumeNote).marker := by
    rw [marker, marker, hparams, Objective.markerLabels, Objective.markerLabels]
    exact congrArg (fun l : Labels => Rule.recording Series.definition (l.insertAll _) "1")
      hunion.symm
  exact ⟨hmarker, marker_determines_rules.2.1 _ _ hmarker⟩

end Slo

end BurnRate
