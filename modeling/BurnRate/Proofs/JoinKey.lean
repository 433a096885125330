import BurnRate.Proofs.PipelineHistory
import BurnRate.Proofs.WindowRules
import Mathlib.Data.List.Count

/-!
The label by which alerts join the series of an objective.

Every rule of an objective carries the name of the objective as its label `name`, whatever other
labels are given. As no two accepted objectives share a name, the rules of a group are told apart
by their series and labels.
-/

namespace BurnRate

/-- The label that holds the name of an objective. -/
def nameLabel : String := "name"

/-- The label of the marker that holds the budget. -/
def budgetLabel : String := "budget"

/-- The rule records a series, and its label holds the name. -/
def Rule.IsRecordedFor (name : String) : Rule → Prop
  | .recording _ labels _ => labels.get? nameLabel = some name
  | .alerting .. => False

/-- The rule is of a series, and its label holds the name. -/
def Rule.isOf (series name : String) (r : Rule) : Bool :=
  r.name == series && r.labels.get? nameLabel == some name

lemma Rule.IsRecordedFor.get? {name : String} {r : Rule} (h : r.IsRecordedFor name) :
    r.labels.get? nameLabel = some name := by
  cases r with
  | recording record labels expr => exact h
  | alerting alert hold labels expr => exact h.elim

lemma Rule.IsRecordedFor.isOf_iff {name series n : String} {r : Rule} (h : r.IsRecordedFor name) :
    r.isOf series n = true ↔ r.name = series ∧ n = name := by
  rw [isOf, h.get?, Bool.and_eq_true, beq_iff_eq, beq_iff_eq, Option.some.injEq, eq_comm (a := n)]

lemma Rule.isOf_eq_false {series n : String} {r : Rule} (h : r.labels.get? nameLabel = none) :
    r.isOf series n = false := by
  rw [isOf, h, Bool.and_eq_false_iff]
  exact .inr rfl

/-! ### The rules of one objective -/

namespace Objective

variable (o : Objective) (template : String) (params labels : Labels)

lemma get?_join : (o.join labels).get? nameLabel = some o.name := by
  rw [join, Labels.get?_insert, nameLabel, if_pos rfl]

lemma get?_markerLabels_name : (o.markerLabels template params).get? nameLabel = some o.name := by
  simp only [markerLabels, Labels.insertAll, List.foldl_cons, List.foldl_nil, Labels.get?_insert,
    nameLabel, if_true]

lemma get?_markerLabels_budget :
    (o.markerLabels template params).get? budgetLabel = some o.budgetText := by
  have hne : budgetLabel ≠ "name" := by decide
  simp only [markerLabels, Labels.insertAll, List.foldl_cons, List.foldl_nil, Labels.get?_insert,
    if_neg hne]
  rw [budgetLabel, if_pos rfl]

lemma isRecordedFor_of_mem_rules {r : Rule} (h : r ∈ o.rules template params) :
    r.IsRecordedFor o.name := by
  simp only [rules, List.mem_cons, List.not_mem_nil, or_false] at h
  rcases h with rfl | rfl | rfl
  · exact o.get?_markerLabels_name template params
  · exact o.get?_join ∅
  · exact o.get?_join o.labels

end Objective

lemma PerWindow.isRecordedFor_of_mem_rules {p : PerWindow} {rs : List Rule} {name : String}
    (h : p.rules = .ok rs) (hname : p.labels.get? nameLabel = some name) {r : Rule} (hr : r ∈ rs) :
    r.IsRecordedFor name := by
  obtain ⟨w, -, t, -, rfl⟩ := exists_of_mem_forall₂ (forall₂_of_rules_eq_ok h) hr
  exact hname

namespace Slo

/-- What the rules of an objective have in common, whatever its kind. -/
structure Brings (s : Slo) (rs : List Rule) : Prop where
  recorded : ∀ r ∈ rs, r.IsRecordedFor s.name
  nodup : (rs.map Rule.name).Nodup
  fixed : ∃ template params rest, rs = s.objective.rules template params ++ rest

variable {s : Slo} {rs : List Rule}

/-- An objective that records two series besides the fixed rules. -/
lemma brings_of_pair {a b : PerWindow} (hs : s.perWindow = [a, b])
    (ha : a.labels.get? nameLabel = some s.name) (hb : b.labels.get? nameLabel = some s.name)
    (hfixed : ∃ template params, s.fixedRules = s.objective.rules template params)
    (hnodup : (fixedNames ++ (seriesNames a.series ++ seriesNames b.series)).Nodup)
    (h : s.rules = .ok rs) : s.Brings rs := by
  obtain ⟨ars, brs, har, hbr, rfl⟩ := rules_of_pair hs h
  obtain ⟨template, params, hrules⟩ := hfixed
  rw [hrules]
  refine ⟨fun r hr => ?_, ?_, template, params, _, rfl⟩
  · rcases List.mem_append.1 hr with hr | hr
    · exact s.objective.isRecordedFor_of_mem_rules template params hr
    · rcases List.mem_append.1 hr with hr | hr
      · exact PerWindow.isRecordedFor_of_mem_rules har ha hr
      · exact PerWindow.isRecordedFor_of_mem_rules hbr hb hr
  · rw [List.map_append, List.map_append, PerWindow.map_name_of_rules_eq_ok har,
      PerWindow.map_name_of_rules_eq_ok hbr]
    exact hnodup

lemma brings_of_rules (h : s.rules = .ok rs) : s.Brings rs := by
  cases s with
  | batch s =>
    cases h
    refine ⟨fun r hr => ?_, ?_, _, _, _, rfl⟩
    · rcases List.mem_append.1 hr with hr | hr
      · exact s.toObjective.isRecordedFor_of_mem_rules _ _ hr
      · simp only [List.mem_cons, List.not_mem_nil, or_false] at hr
        rcases hr with rfl | rfl | rfl <;> exact s.toObjective.get?_join ∅
    · have hnames : (fixedNames ++ [Series.batchVolume, Series.batchThroughputTarget,
          Series.batchThroughput]).Nodup := by decide
      exact hnames
  | errorRate s =>
    have hnames : (fixedNames ++ (seriesNames Series.errors ++
        seriesNames Series.errorRateTotal)).Nodup := by decide +kernel
    exact brings_of_pair rfl (s.toObjective.get?_join ∅) (s.toObjective.get?_join ∅)
      ⟨_, _, rfl⟩ hnames h
  | latency s =>
    have hnames : (fixedNames ++ (seriesNames Series.latencyTotal ++
        seriesNames Series.latencyObservation)).Nodup := by decide +kernel
    exact brings_of_pair rfl (s.toObjective.get?_join _) (s.toObjective.get?_join _)
      ⟨_, _, rfl⟩ hnames h

lemma Brings.map_name_fixed (h : s.Brings rs) {series : String} (hseries : series ∈ fixedNames) :
    series ∈ rs.map Rule.name := by
  obtain ⟨template, params, rest, rfl⟩ := h.fixed
  rw [List.map_append]
  exact List.mem_append_left _ hseries

/-- A fixed series is recorded once, for the objective's own name. -/
lemma Brings.countP_isOf (h : s.Brings rs) {series : String} (hseries : series ∈ fixedNames)
    (n : String) : rs.countP (Rule.isOf series n) = if n = s.name then 1 else 0 := by
  split
  · next hn =>
    have hcongr : rs.countP (Rule.isOf series n) = rs.countP ((· == series) ∘ Rule.name) := by
      refine List.countP_congr fun r hr => ?_
      rw [(h.recorded r hr).isOf_iff, Function.comp_apply, beq_iff_eq]
      exact and_iff_left hn
    rw [hcongr, ← List.countP_map]
    exact List.count_eq_one_of_mem h.nodup (h.map_name_fixed hseries)
  · next hn =>
    rw [List.countP_eq_zero]
    exact fun r hr hof => hn ((h.recorded r hr).isOf_iff.1 hof).2

lemma Brings.mem_budget (h : s.Brings rs) :
    .recording Series.errorBudget (s.objective.join ∅) s.objective.budgetText ∈ rs := by
  obtain ⟨template, params, rest, rfl⟩ := h.fixed
  simp [Objective.rules]

lemma Brings.eq_budget (h : s.Brings rs) {r : Rule} (hr : r ∈ rs)
    (hname : r.name = Series.errorBudget) :
    r = .recording Series.errorBudget (s.objective.join ∅) s.objective.budgetText :=
  List.inj_on_of_nodup_map h.nodup hr h.mem_budget hname

/-- The budget carries the name alone, and is what the marker tells. -/
lemma Brings.budget (h : s.Brings rs) {r : Rule} (hr : r ∈ rs)
    (hname : r.name = Series.errorBudget) :
    r.labels.entries = [(nameLabel, s.name)] ∧ ∃ m ∈ rs, m.isOf Series.definition s.name = true ∧
      m.labels.get? budgetLabel = some r.expr := by
  obtain rfl := h.eq_budget hr hname
  obtain ⟨template, params, rest, rfl⟩ := h.fixed
  have hmarker : .recording Series.definition (s.objective.markerLabels template params) "1" ∈
      s.objective.rules template params ++ rest := by simp [Objective.rules]
  exact ⟨rfl, _, hmarker, (h.recorded _ hmarker).isOf_iff.2 ⟨rfl, rfl⟩,
    s.objective.get?_markerLabels_budget template params⟩

end Slo

/-! ### The rules of all accepted objectives -/

section

variable {acc : List Slo} {rss : List (List Rule)}

lemma exists_isRecordedFor (h : List.Forall₂ Slo.Brings acc rss) {r : Rule} (hr : r ∈ rss.flatten) :
    ∃ s ∈ acc, r.IsRecordedFor s.name := by
  obtain ⟨rs, hrs, hmem⟩ := List.mem_flatten.1 hr
  obtain ⟨s, hs, hbrings⟩ := exists_of_mem_forall₂ h hrs
  exact ⟨s, hs, hbrings.recorded r hmem⟩

/-- Where no two objectives share a name, no two rules share series and labels. -/
lemma nodup_series_labels (h : List.Forall₂ Slo.Brings acc rss) (hacc : (acc.map Slo.name).Nodup) :
    (rss.flatten.map fun r => (r.name, r.labels)).Nodup := by
  induction h with
  | nil => exact List.nodup_nil
  | @cons s rs acc rss hs h ih =>
    obtain ⟨hnew, hacc⟩ := List.nodup_cons.1 hacc
    rw [List.flatten_cons, List.map_append]
    refine List.nodup_append'.2 ⟨?_, ih hacc, fun x hx hy => ?_⟩
    · refine List.Nodup.of_map Prod.fst ?_
      rw [List.map_map]
      exact hs.nodup
    · obtain ⟨r, hr, rfl⟩ := List.mem_map.1 hx
      obtain ⟨t, ht, heq⟩ := List.mem_map.1 hy
      obtain ⟨s', hs', hname⟩ := exists_isRecordedFor h ht
      have hlabels : t.labels = r.labels := congrArg Prod.snd heq
      have hget := hname.get?
      rw [hlabels, (hs.recorded r hr).get?] at hget
      exact hnew (Option.some.inj hget ▸ List.mem_map_of_mem hs')

lemma countP_isOf_flatten (h : List.Forall₂ Slo.Brings acc rss) (hacc : (acc.map Slo.name).Nodup)
    {series : String} (hseries : series ∈ Slo.fixedNames) (n : String) :
    rss.flatten.countP (Rule.isOf series n) = if n ∈ acc.map Slo.name then 1 else 0 := by
  induction h with
  | nil => rfl
  | @cons s rs acc rss hs h ih =>
    obtain ⟨hnew, hacc⟩ := List.nodup_cons.1 hacc
    rw [List.flatten_cons, List.countP_append, hs.countP_isOf hseries, ih hacc, List.map_cons]
    by_cases hn : n = s.name
    · subst hn
      simp [hnew]
    · simp [hn]

end

/-! ### The rules that no objective brings -/

namespace Kind

variable {k l : Kind} {r : Rule}

lemma mem_all (k : Kind) : k ∈ all := by
  cases k <;> decide

lemma unnamed_of_mem_ratioRules (h : r ∈ k.ratioRules) :
    r.labels = ∅ ∧ r.name ∉ Slo.fixedNames := by
  have hall : ∀ k ∈ all, ∀ r ∈ k.ratioRules, r.labels = ∅ ∧ r.name ∉ Slo.fixedNames := by
    decide +kernel
  exact hall k k.mem_all r h

lemma nodup_ratioRules (k : Kind) : k.ratioRules.Nodup := by
  have hall : ∀ k ∈ all, k.ratioRules.Nodup := by decide +kernel
  exact hall k k.mem_all

/-- All kinds record the same series, each with expressions of its own. -/
lemma disjoint_ratioRules (h : k ≠ l) : k.ratioRules.Disjoint l.ratioRules := by
  have hall : ∀ k ∈ all, ∀ l ∈ all, k ≠ l → ∀ r ∈ k.ratioRules, r ∉ l.ratioRules := by
    decide +kernel
  exact fun r hk hl => hall k k.mem_all l l.mem_all h r hk hl

end Kind

lemma alertRules_labels : ∀ r ∈ alertRules,
    r.labels ≠ ∅ ∧ r.labels.get? nameLabel = none ∧ r.name ∉ Slo.fixedNames := by
  decide +kernel

namespace Registry

variable (r : Registry)

lemma nodup_ratioRules : r.ratioRules.Nodup :=
  List.nodup_flatMap.2 ⟨fun k _ => k.nodup_ratioRules, r.nodup.imp Kind.disjoint_ratioRules⟩

/-- No rule of the kinds and no alert is of an objective. -/
lemma unnamed_of_mem_shared {t : Rule} (h : t ∈ r.ratioRules ++ alertRules) :
    t.labels.get? nameLabel = none ∧ t.name ∉ Slo.fixedNames := by
  rcases List.mem_append.1 h with h | h
  · obtain ⟨k, -, hk⟩ := List.mem_flatMap.1 h
    obtain ⟨hlabels, hname⟩ := Kind.unnamed_of_mem_ratioRules hk
    exact ⟨by rw [hlabels]; rfl, hname⟩
  · exact (alertRules_labels t h).2

lemma nodup_shared : (r.ratioRules ++ alertRules).Nodup := by
  have halerts : alertRules.Nodup := by decide +kernel
  refine List.nodup_append'.2 ⟨r.nodup_ratioRules, halerts, fun t hr ha => ?_⟩
  obtain ⟨k, -, hk⟩ := List.mem_flatMap.1 hr
  exact (alertRules_labels t ha).1 (Kind.unnamed_of_mem_ratioRules hk).1

end Registry

/-! ### The rules of a group -/

/-- How the rules of accepted objectives, `own`, stand to the other rules of their group. -/
structure JoinsByName (acc : List Slo) (own shared : List Rule) : Prop where
  /-- Each objective records its rules under its name as it is. -/
  recorded : ∃ rss, own = rss.flatten ∧
    List.Forall₂ (fun s rs => s.rules = .ok rs ∧ ∀ r ∈ rs, r.IsRecordedFor s.name) acc rss
  /-- A name that was accepted has one marker, one budget and one rule of labels, any other none. -/
  once : ∀ series ∈ Slo.fixedNames, ∀ n,
    (own ++ shared).countP (Rule.isOf series n) = if n ∈ acc.map Slo.name then 1 else 0
  /-- A budget has no label but the name, and is what the marker of the name tells. -/
  budget : ∀ r ∈ own ++ shared, r.name = Series.errorBudget → ∃ n ∈ acc.map Slo.name,
    r.labels.entries = [(nameLabel, n)] ∧ ∃ m ∈ own ++ shared,
      m.isOf Series.definition n = true ∧ m.labels.get? budgetLabel = some r.expr
  /-- The rules of objectives are told apart by series and labels. -/
  apart : (own.map fun r => (r.name, r.labels)).Nodup
  nodup : (own ++ shared).Nodup

namespace Pipeline

/-- **The join key**: after any sequence of calls, the rules of every group that is built are
joined by the names of the objectives that were accepted. -/
theorem build_joinsByName (name : String) (cs : List Call) (r : Registry) :
    (run { name } cs).build r =
        ⟨[⟨name, (run { name } cs).rules ++ (r.ratioRules ++ alertRules)⟩]⟩ ∧
      JoinsByName (accepted { name } cs) (run { name } cs).rules (r.ratioRules ++ alertRules) := by
  have h : Holds name (run { name } cs) (accepted { name } cs) := (Holds.start name).run cs
  obtain ⟨rss, hrules, hown⟩ := h.rules
  have hbring : List.Forall₂ Slo.Brings (accepted { name } cs) rss :=
    hrules.imp fun _ _ => Slo.brings_of_rules
  have hapart := nodup_series_labels hbring h.nodup
  rw [Pipeline.build, h.name, hown, List.append_assoc]
  refine ⟨rfl, ⟨rss, rfl, ?_⟩, fun series hseries n => ?_, fun t ht hname => ?_, hapart, ?_⟩
  · exact hrules.imp fun s rs hrs => ⟨hrs, (Slo.brings_of_rules hrs).recorded⟩
  · have hshared : (r.ratioRules ++ alertRules).countP (Rule.isOf series n) = 0 :=
      List.countP_eq_zero.2 fun t ht => by
        simp [Rule.isOf_eq_false (r.unnamed_of_mem_shared ht).1]
    rw [List.countP_append, countP_isOf_flatten hbring h.nodup hseries, hshared, Nat.add_zero]
  · rcases List.mem_append.1 ht with ht | ht
    · obtain ⟨rs, hrs, hmem⟩ := List.mem_flatten.1 ht
      obtain ⟨s, hs, hbrings⟩ := exists_of_mem_forall₂ hbring hrs
      obtain ⟨hlabels, m, hm, hmarker⟩ := hbrings.budget hmem hname
      exact ⟨s.name, List.mem_map_of_mem hs, hlabels, m,
        List.mem_append_left _ (List.mem_flatten.2 ⟨rs, hrs, hm⟩), hmarker⟩
    · have hfixed : Series.errorBudget ∈ Slo.fixedNames := by decide
      exact absurd (hname ▸ hfixed) (r.unnamed_of_mem_shared ht).2
  · refine List.nodup_append'.2 ⟨hapart.of_map _, r.nodup_shared, fun t hown hshared => ?_⟩
    obtain ⟨s, -, hrecorded⟩ := exists_isRecordedFor hbring hown
    have hget := hrecorded.get?
    rw [(r.unnamed_of_mem_shared hshared).1] at hget
    cases hget

end Pipeline

end BurnRate
