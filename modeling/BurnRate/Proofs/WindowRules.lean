import BurnRate.Proofs.LabelLookups
import BurnRate.Proofs.Results
import BurnRate.Slo
import Mathlib.Data.List.Nodup

/-!
The rules that an objective records once per window, series by series.

Behind the fixed rules of an objective come those of its series. A series alone decides its rules,
and their names tell the series apart.
-/

namespace BurnRate

lemma get?_valuesAt_window (extra : List (String × String)) (w : String) :
    (valuesAt extra w).get? windowName = some w := by
  rw [valuesAt, Labels.get?_insert, if_pos rfl]

/-! ### What an objective records per window -/

/-- An expression that is recorded once per window, in a series named for the window. -/
structure PerWindow where
  series : String
  labels : Labels
  expr : String
  extra : List (String × String)

namespace PerWindow

/-- The placeholders that have values. -/
def placeholders (p : PerWindow) : List String := windowName :: p.extra.map (·.1)

/-- The expression for one window. -/
def textAt (p : PerWindow) (w : String) : Except RenderError String :=
  renderExpression (Text.trim p.expr) (valuesAt p.extra w)

def rules (p : PerWindow) : Except RenderError (List Rule) :=
  recordPerWindow p.series p.labels p.expr p.extra

def Renders (p : PerWindow) : Prop := ∀ w ∈ alertWindows, ∃ t, p.textAt w = .ok t

/-- The window that the expression first fails to render for, and the error. -/
def FirstFailure (p : PerWindow) (e : RenderError) : Prop :=
  ∃ before w after, alertWindows = before ++ w :: after ∧
    (∀ v ∈ before, ∃ t, p.textAt v = .ok t) ∧ p.textAt w = .error e

lemma isSome_get?_valuesAt {p : PerWindow} {n : String} (h : n ∈ p.placeholders) (w : String) :
    ((valuesAt p.extra w).get? n).isSome := by
  rw [valuesAt, Labels.get?_insert]
  split
  · rfl
  · next hn =>
    exact Labels.isSome_get?_insertAll (.inr ((List.mem_cons.1 h).resolve_left hn))

lemma rules_eq (p : PerWindow) :
    p.rules = alertWindows.mapM fun w =>
      (p.textAt w).map (Rule.recording (p.series ++ w) p.labels) := by
  unfold rules recordPerWindow
  refine congrArg (alertWindows.mapM ·) (funext fun w => ?_)
  unfold textAt
  cases renderExpression (Text.trim p.expr) (valuesAt p.extra w) <;> rfl

lemma rules_ok_iff {p : PerWindow} : (∃ rs, p.rules = .ok rs) ↔ p.Renders := by
  rw [rules_eq, mapM_ok_iff]
  refine forall₂_congr fun w _ => ?_
  cases p.textAt w <;> simp [Except.map]

lemma rules_error_iff {p : PerWindow} {e : RenderError} :
    p.rules = .error e ↔ p.FirstFailure e := by
  have hok (w : String) : (∃ r, (p.textAt w).map (Rule.recording (p.series ++ w) p.labels) =
      .ok r) ↔ ∃ t, p.textAt w = .ok t := by
    cases p.textAt w <;> simp [Except.map]
  have herror (w : String) : (p.textAt w).map (Rule.recording (p.series ++ w) p.labels) =
      .error e ↔ p.textAt w = .error e := by
    cases p.textAt w <;> simp [Except.map]
  rw [rules_eq, mapM_error_iff]
  simp only [hok, herror, FirstFailure]

end PerWindow

/-- The requests of a class, by the bucket of the class. -/
def LatencySlo.observations (s : LatencySlo) : PerWindow :=
  ⟨Series.latencyObservation, s.seriesLabels, s.observation,
    [(bucketName, s.requestClass.bucket)]⟩

namespace Slo

/-- The expressions that an objective records per window, in order. -/
def perWindow : Slo → List PerWindow
  | batch _ => []
  | errorRate s =>
    [⟨Series.errors, s.join ∅, s.errors, []⟩, ⟨Series.errorRateTotal, s.join ∅, s.total, []⟩]
  | latency s =>
    [⟨Series.latencyTotal, s.seriesLabels, s.total, []⟩, s.observations]

/-- The rules of an objective that no window decides. -/
def fixedRules : Slo → List Rule
  | batch s => s.rules
  | errorRate s => s.toObjective.rules Kind.errorRate.name s.params
  | latency s => s.toObjective.rules Kind.latency.name s.params

lemma rules_eq (s : Slo) :
    s.rules = (s.perWindow.mapM PerWindow.rules).map fun rss => s.fixedRules ++ rss.flatten := by
  cases s with
  | batch s => simp [rules, perWindow, fixedRules, pure, Except.pure, Except.map]
  | errorRate s =>
    simp only [rules, ErrorRateSlo.rules, perWindow, fixedRules, List.mapM_cons, List.mapM_nil,
      PerWindow.rules]
    cases recordPerWindow Series.errors (s.join ∅) s.errors [] with
    | error e => rfl
    | ok errors =>
      cases recordPerWindow Series.errorRateTotal (s.join ∅) s.total [] with
      | error e => rfl
      | ok total => simp [bind, Except.bind, pure, Except.pure, Except.map]
  | latency s =>
    simp only [rules, LatencySlo.rules, LatencySlo.observations, perWindow, fixedRules,
      List.mapM_cons, List.mapM_nil, PerWindow.rules]
    cases recordPerWindow Series.latencyTotal s.seriesLabels s.total [] with
    | error e => rfl
    | ok total =>
      cases recordPerWindow Series.latencyObservation s.seriesLabels s.observation
        [(bucketName, s.requestClass.bucket)] with
      | error e => rfl
      | ok observation => simp [bind, Except.bind, pure, Except.pure, Except.map]

/-- The first expression that fails to render for some window, and the error. -/
def FirstFailure (s : Slo) (e : RenderError) : Prop :=
  ∃ before p after, s.perWindow = before ++ p :: after ∧ (∀ q ∈ before, q.Renders) ∧
    p.FirstFailure e

lemma rules_ok_iff {s : Slo} : (∃ rs, s.rules = .ok rs) ↔ ∀ p ∈ s.perWindow, p.Renders := by
  have h : (∃ rs, s.rules = .ok rs) ↔ ∃ rss, s.perWindow.mapM PerWindow.rules = .ok rss := by
    rw [rules_eq]
    cases s.perWindow.mapM PerWindow.rules <;> simp [Except.map]
  rw [h, mapM_ok_iff]
  exact forall₂_congr fun p _ => PerWindow.rules_ok_iff

lemma rules_error_iff {s : Slo} {e : RenderError} : s.rules = .error e ↔ s.FirstFailure e := by
  have h : s.rules = .error e ↔ s.perWindow.mapM PerWindow.rules = .error e := by
    rw [rules_eq]
    cases s.perWindow.mapM PerWindow.rules <;> simp [Except.map]
  rw [h, mapM_error_iff]
  simp only [PerWindow.rules_ok_iff, PerWindow.rules_error_iff, FirstFailure]

end Slo

/-! ### The rules of one series -/

/-- The names of a series, one per window. -/
def seriesNames (series : String) : List String := alertWindows.map (series ++ ·)

namespace PerWindow

variable {p : PerWindow} {rs : List Rule}

/-- Those of some rules that record the expression for a window. -/
def recorded (p : PerWindow) (rs : List Rule) : List Rule :=
  rs.filter fun r => (seriesNames p.series).contains r.name

lemma recorded_append (rs rs' : List Rule) :
    p.recorded (rs ++ rs') = p.recorded rs ++ p.recorded rs' :=
  List.filter_append rs rs'

lemma recorded_eq_self (h : rs.map Rule.name = seriesNames p.series) : p.recorded rs = rs := by
  refine List.filter_eq_self.2 fun r hr => ?_
  rw [List.contains_iff_mem, ← h]
  exact List.mem_map_of_mem hr

lemma recorded_eq_nil (h : ∀ n ∈ rs.map Rule.name, n ∉ seriesNames p.series) :
    p.recorded rs = [] := by
  refine List.filter_eq_nil_iff.2 fun r hr => ?_
  rw [List.contains_iff_mem]
  exact h r.name (List.mem_map_of_mem hr)

/-- A series is recorded window by window: the rule of a window holds what is rendered for it. -/
lemma forall₂_of_rules_eq_ok (h : p.rules = .ok rs) :
    List.Forall₂ (fun w r => ∃ t, p.textAt w = .ok t ∧ r = .recording (p.series ++ w) p.labels t)
      alertWindows rs := by
  rw [rules_eq, mapM_eq_ok_iff] at h
  refine h.imp fun w r hr => ?_
  cases ht : p.textAt w with
  | error e =>
    rw [ht] at hr
    cases hr
  | ok t =>
    rw [ht] at hr
    cases hr
    exact ⟨t, rfl, rfl⟩

lemma map_name_of_rules_eq_ok (h : p.rules = .ok rs) : rs.map Rule.name = seriesNames p.series := by
  rw [seriesNames, eq_comm, ← List.forall₂_eq_eq_eq, List.forall₂_map_left_iff,
    List.forall₂_map_right_iff]
  refine (forall₂_of_rules_eq_ok h).imp fun w r hr => ?_
  obtain ⟨t, -, rfl⟩ := hr
  rfl

lemma map_textAt_of_rules_eq_ok (h : p.rules = .ok rs) :
    alertWindows.map p.textAt = rs.map (.ok ·.expr) := by
  rw [← List.forall₂_eq_eq_eq, List.forall₂_map_left_iff, List.forall₂_map_right_iff]
  refine (forall₂_of_rules_eq_ok h).imp fun w r hr => ?_
  obtain ⟨t, ht, rfl⟩ := hr
  exact ht

end PerWindow

namespace Slo

/-- Names of the rules that no window decides. -/
def fixedNames : List String := [Series.definition, Series.errorBudget, Series.labelsInfo]

/-- The names of a series are neither fixed nor those of another series. -/
def IsApart (series other : String) : Prop :=
  ∀ n ∈ fixedNames ++ seriesNames other, n ∉ seriesNames series

instance (series other : String) : Decidable (IsApart series other) :=
  inferInstanceAs (Decidable (∀ n ∈ fixedNames ++ seriesNames other, n ∉ seriesNames series))

/-- An objective with two series has their rules behind the fixed ones. -/
lemma rules_of_pair {s : Slo} {a b : PerWindow} (hs : s.perWindow = [a, b]) {rs : List Rule}
    (h : s.rules = .ok rs) :
    ∃ ars brs, a.rules = .ok ars ∧ b.rules = .ok brs ∧ rs = s.fixedRules ++ (ars ++ brs) := by
  rw [rules_eq, hs] at h
  cases hrules : [a, b].mapM PerWindow.rules with
  | error e =>
    rw [hrules] at h
    cases h
  | ok rss =>
    rw [hrules] at h
    cases h
    rcases mapM_eq_ok_iff.1 hrules with _ | ⟨ha, _ | ⟨hb, _ | _⟩⟩
    exact ⟨_, _, ha, hb, by simp⟩

/-- Two series behind the fixed rules are told apart by their names. -/
lemma rules_recorded_of_pair {s : Slo} {a b : PerWindow} (hs : s.perWindow = [a, b])
    (hfixed : s.fixedRules.map Rule.name = fixedNames) (hab : IsApart a.series b.series)
    (hba : IsApart b.series a.series) {rs : List Rule} (h : s.rules = .ok rs) :
    ∀ p ∈ s.perWindow, p.rules = .ok (p.recorded rs) := by
  obtain ⟨ars, brs, ha, hb, rfl⟩ := rules_of_pair hs h
  have hanames := PerWindow.map_name_of_rules_eq_ok ha
  have hbnames := PerWindow.map_name_of_rules_eq_ok hb
  have hfa : a.recorded s.fixedRules = [] := PerWindow.recorded_eq_nil fun n hn =>
    hab n (List.mem_append_left _ (hfixed ▸ hn))
  have hfb : b.recorded s.fixedRules = [] := PerWindow.recorded_eq_nil fun n hn =>
    hba n (List.mem_append_left _ (hfixed ▸ hn))
  have hab' : a.recorded brs = [] := PerWindow.recorded_eq_nil fun n hn =>
    hab n (List.mem_append_right _ (hbnames ▸ hn))
  have hba' : b.recorded ars = [] := PerWindow.recorded_eq_nil fun n hn =>
    hba n (List.mem_append_right _ (hanames ▸ hn))
  intro p hp
  rw [hs, List.mem_pair] at hp
  rcases hp with rfl | rfl
  · rw [PerWindow.recorded_append, PerWindow.recorded_append, hfa, hab',
      PerWindow.recorded_eq_self hanames, List.nil_append, List.append_nil, ha]
  · rw [PerWindow.recorded_append, PerWindow.recorded_append, hfb, hba',
      PerWindow.recorded_eq_self hbnames, List.nil_append, List.nil_append, hb]

/-- Among the rules of an objective, those of a series are what the series alone has. -/
lemma rules_recorded {s : Slo} {rs : List Rule} (h : s.rules = .ok rs) :
    ∀ p ∈ s.perWindow, p.rules = .ok (p.recorded rs) := by
  cases s with
  | batch s => exact fun p hp => nomatch hp
  | errorRate s =>
    have hab : IsApart Series.errors Series.errorRateTotal := by decide +kernel
    have hba : IsApart Series.errorRateTotal Series.errors := by decide +kernel
    exact rules_recorded_of_pair rfl rfl hab hba h
  | latency s =>
    have hab : IsApart Series.latencyTotal Series.latencyObservation := by decide +kernel
    have hba : IsApart Series.latencyObservation Series.latencyTotal := by decide +kernel
    exact rules_recorded_of_pair rfl rfl hab hba h

end Slo

end BurnRate
