import BurnRate.Proofs.WindowRules

/-!
The rules of an objective in two parts: those that every objective has, and those of its kind.

The first part shows the objective and its parameters. The second is recorded in series that the
kind names, all with the same labels.
-/

namespace BurnRate

/-- The series that an objective of the kind records behind those that every objective has. -/
def Kind.ownSeries : Kind → List String
  | batch => [Series.batchVolume, Series.batchThroughputTarget, Series.batchThroughput]
  | errorRate => seriesNames Series.errors ++ seriesNames Series.errorRateTotal
  | latency => seriesNames Series.latencyTotal ++ seriesNames Series.latencyObservation

lemma PerWindow.rules_congr {p q : PerWindow} (hseries : p.series = q.series)
    (hlabels : p.labels = q.labels) (hexpr : Text.trim p.expr = Text.trim q.expr)
    (hextra : p.extra = q.extra) : p.rules = q.rules := by
  rw [rules, rules, recordPerWindow, recordPerWindow, hseries, hlabels, hexpr, hextra]

/-- The series of a batch objective. -/
def BatchSlo.ownRules (s : BatchSlo) : List Rule :=
  [.recording Series.batchVolume (s.join ∅) (Text.trim s.volume),
    .recording Series.batchThroughputTarget (s.join ∅) s.targetText,
    .recording Series.batchThroughput (s.join ∅) (Text.trim s.throughput)]

namespace Slo

/-- The parameters of an objective, as they are recorded on its marker. -/
def params : Slo → Labels
  | batch s => s.params
  | errorRate s => s.params
  | latency s => s.params

/-- The rules that an objective has whatever its kind. -/
def sharedRules (s : Slo) : List Rule := s.objective.rules s.kind.name s.params

/-- The rules that an objective has for its kind. -/
def ownRules : Slo → Except RenderError (List Rule)
  | batch s => .ok s.ownRules
  | errorRate s => ((errorRate s).perWindow.mapM PerWindow.rules).map List.flatten
  | latency s => ((latency s).perWindow.mapM PerWindow.rules).map List.flatten

/-- The labels of all series of the kind. -/
def ownLabels : Slo → Labels
  | batch s => s.join ∅
  | errorRate s => s.join ∅
  | latency s => s.seriesLabels

variable {s : Slo} {own rs : List Rule}

lemma rules_eq_shared_append (s : Slo) : s.rules = s.ownRules.map (s.sharedRules ++ ·) := by
  cases s with
  | batch s => rfl
  | errorRate s =>
    rw [rules_eq, ownRules]
    cases (errorRate s).perWindow.mapM PerWindow.rules <;> rfl
  | latency s =>
    rw [rules_eq, ownRules]
    cases (latency s).perWindow.mapM PerWindow.rules <;> rfl

lemma rules_ok_iff_own : s.rules = .ok rs ↔
    ∃ own, s.ownRules = .ok own ∧ rs = s.sharedRules ++ own := by
  rw [rules_eq_shared_append]
  cases s.ownRules <;> simp [Except.map, eq_comm]

/-- The rules of one series: named for the windows, with the labels of the series. -/
lemma perWindow_rules_ok {p : PerWindow} (h : p.rules = .ok rs) :
    rs.map Rule.name = seriesNames p.series ∧
      ∀ r ∈ rs, ∃ expr, r = .recording r.name p.labels expr := by
  refine ⟨PerWindow.map_name_of_rules_eq_ok h, fun r hr => ?_⟩
  obtain ⟨w, -, t, -, rfl⟩ := exists_of_mem_forall₂ (PerWindow.forall₂_of_rules_eq_ok h) hr
  exact ⟨t, rfl⟩

/-- Two series in a row, with the same labels. -/
lemma ownRules_ok_of_pair {a b : PerWindow} (hs : s.perWindow = [a, b])
    (hown : s.ownRules = (s.perWindow.mapM PerWindow.rules).map List.flatten)
    (ha : a.labels = s.ownLabels) (hb : b.labels = s.ownLabels) (h : s.ownRules = .ok own) :
    own.map Rule.name = seriesNames a.series ++ seriesNames b.series ∧
      ∀ r ∈ own, ∃ expr, r = .recording r.name s.ownLabels expr := by
  rw [hown, hs] at h
  cases hrules : [a, b].mapM PerWindow.rules with
  | error e =>
    rw [hrules] at h
    cases h
  | ok rss =>
    rw [hrules] at h
    cases h
    rcases mapM_eq_ok_iff.1 hrules with _ | ⟨har, _ | ⟨hbr, _ | _⟩⟩
    obtain ⟨hanames, halabels⟩ := perWindow_rules_ok har
    obtain ⟨hbnames, hblabels⟩ := perWindow_rules_ok hbr
    rw [ha] at halabels
    rw [hb] at hblabels
    simp only [List.flatten_cons, List.flatten_nil, List.append_nil, List.map_append, hanames,
      hbnames, List.forall_mem_append]
    exact ⟨trivial, halabels, hblabels⟩

/-- The rules of the kind are recorded in the series of the kind, with the same labels. -/
lemma ownRules_ok (h : s.ownRules = .ok own) : own.map Rule.name = s.kind.ownSeries ∧
    ∀ r ∈ own, ∃ expr, r = .recording r.name s.ownLabels expr := by
  cases s with
  | batch s =>
    cases h
    refine ⟨rfl, fun r hr => ?_⟩
    simp only [BatchSlo.ownRules, List.mem_cons, List.not_mem_nil, or_false] at hr
    rcases hr with rfl | rfl | rfl <;> exact ⟨_, rfl⟩
  | errorRate s => exact ownRules_ok_of_pair rfl rfl rfl rfl h
  | latency s => exact ownRules_ok_of_pair rfl rfl rfl rfl h

/-- The kind alone tells which series an objective records. -/
lemma map_name_of_rules (h : s.rules = .ok rs) :
    rs.map Rule.name = fixedNames ++ s.kind.ownSeries := by
  obtain ⟨own, hown, rfl⟩ := rules_ok_iff_own.1 h
  rw [List.map_append, (ownRules_ok hown).1]
  rfl

end Slo

end BurnRate
