import BurnRate.Proofs.DefinitionSequence
import BurnRate.Proofs.DurationText
import BurnRate.Proofs.NumeralRange
import BurnRate.Proofs.SeriesReferences

/-!
Groups that are built from definitions are well formed.

A definition that is read has passed its checks, and the checks are what the rules need: keys of
labels that the monitoring system takes, a name that can be seen, a budget that prints as a plain
fraction, and a deadline to divide by.
-/

namespace BurnRate

/-! ### Names -/

/-- An ASCII letter or digit. -/
def IsLetterOrDigit (c : Char) : Prop :=
  ('a' ≤ c ∧ c ≤ 'z') ∨ ('A' ≤ c ∧ c ≤ 'Z') ∨ ('0' ≤ c ∧ c ≤ '9')

instance (c : Char) : Decidable (IsLetterOrDigit c) := by unfold IsLetterOrDigit; infer_instance

/-- Letters, digits and some other characters, the first of them not a digit. -/
structure IsIdentifier (others : List Char) (s : String) : Prop where
  nonempty : s ≠ ""
  characters : ∀ c ∈ s.toList, IsLetterOrDigit c ∨ c ∈ others
  first : ∀ c ∈ s.toList.head?, ¬ ('0' ≤ c ∧ c ≤ '9')

instance (others : List Char) (s : String) : Decidable (IsIdentifier others s) :=
  decidable_of_iff (s ≠ "" ∧ s.toList.all (fun c => IsLetterOrDigit c ∨ c ∈ others) = true ∧
      s.toList.head?.all (fun c => ¬ ('0' ≤ c ∧ c ≤ '9')) = true) (by
    simp only [List.all_eq_true, Option.all_eq_true, decide_eq_true_eq]
    exact ⟨fun ⟨hn, hc, hf⟩ => ⟨hn, hc, hf⟩, fun h => ⟨h.nonempty, h.characters, h.first⟩⟩)

/-- A key that labels may have. -/
abbrev IsLabelKey (key : String) : Prop := IsIdentifier ['_'] key

/-- A name that metrics may have. -/
abbrev IsMetricName (name : String) : Prop := IsIdentifier ['_', ':'] name

lemma isLetterOrDigit_of_isAlphanum {c : Char} (h : c.isAlphanum = true) : IsLetterOrDigit c := by
  rcases Bool.or_eq_true_iff.1 h with h | h
  · rcases Bool.or_eq_true_iff.1 h with h | h
    · exact .inr (.inl (between_of_isUpper h))
    · exact .inl (between_of_isLower h)
  · exact .inr (.inr (between_of_isDigit h))

lemma not_digit_of_isAlpha {c : Char} (h : c.isAlpha = true) : ¬ ('0' ≤ c ∧ c ≤ '9') := by
  rintro ⟨-, hhigh⟩
  have hnine : c.toNat ≤ 57 := hhigh
  rcases Bool.or_eq_true_iff.1 h with h | h
  · have hletter : 65 ≤ c.toNat := (between_of_isUpper h).1
    omega
  · have hletter : 97 ≤ c.toNat := (between_of_isLower h).1
    omega

/-- The check of a key lets nothing else pass. -/
lemma isLabelKey_of_isLabelName {key : String} (h : isLabelName key = true) : IsLabelKey key := by
  unfold isLabelName at h
  split at h
  · cases h
  · next c cs hkey =>
    simp only [Bool.and_eq_true, Bool.or_eq_true, beq_iff_eq, List.all_eq_true] at h
    obtain ⟨hc, hcs⟩ := h
    refine ⟨?_, fun d hd => ?_, fun d hd => ?_⟩
    · rintro rfl
      cases hkey
    · rw [hkey] at hd
      rcases List.mem_cons.1 hd with rfl | hd
      · rcases hc with hc | rfl
        · have halphanum : d.isAlphanum = true := Bool.or_eq_true_iff.2 (.inl hc)
          exact .inl (isLetterOrDigit_of_isAlphanum halphanum)
        · exact .inr (by simp)
      · rcases hcs d hd with hd | rfl
        · exact .inl (isLetterOrDigit_of_isAlphanum hd)
        · exact .inr (by simp)
    · rw [hkey, List.head?_cons, Option.mem_some_iff] at hd
      subst hd
      rcases hc with hc | rfl
      · exact not_digit_of_isAlpha hc
      · decide

/-- A metric name is still one with a window behind it. -/
lemma isMetricName_append {series w : String} (h : IsMetricName series)
    (hw : isSeriesName w = true) : IsMetricName (series ++ w) := by
  have hlist : series.toList ≠ [] := fun hnil => h.nonempty (String.toList_eq_nil_iff.1 hnil)
  refine ⟨?_, ?_, ?_⟩
  · intro hempty
    exact h.nonempty (String.append_eq_empty_iff.1 hempty).1
  · rw [String.toList_append, List.forall_mem_append]
    refine ⟨h.characters, fun c hc => ?_⟩
    have hchar := List.all_eq_true.1 hw c hc
    simp only [isSeriesChar, Bool.or_eq_true, beq_iff_eq] at hchar
    rcases hchar with (hchar | rfl) | rfl
    · exact .inl (isLetterOrDigit_of_isAlphanum hchar)
    · exact .inr (by simp)
    · exact .inr (by simp)
  · rw [String.toList_append, List.head?_append_of_ne_nil _ hlist]
    exact h.first

/-! ### Keys of labels -/

namespace Labels

/-- All keys may be those of labels. -/
def HasLabelKeys (l : Labels) : Prop := ∀ key ∈ l.keys, IsLabelKey key

variable {l m : Labels} {pairs : List (String × String)}

lemma hasLabelKeys_empty : HasLabelKeys ∅ := fun _ h => by cases h

lemma HasLabelKeys.insert {k v : String} (h : l.HasLabelKeys) (hk : IsLabelKey k) :
    (l.insert k v).HasLabelKeys := by
  intro key hkey
  obtain ⟨e, he, rfl⟩ := List.mem_map.1 hkey
  rcases eq_or_mem_of_mem_put he with rfl | he
  · exact hk
  · exact h e.1 (List.mem_map_of_mem he)

lemma HasLabelKeys.insertAll (h : l.HasLabelKeys)
    (hpairs : ∀ key ∈ pairs.map (·.1), IsLabelKey key) : (l.insertAll pairs).HasLabelKeys := by
  induction pairs generalizing l with
  | nil => exact h
  | cons e pairs ih =>
    obtain ⟨he, hpairs⟩ := List.forall_mem_cons.1 hpairs
    exact ih (h.insert he) hpairs

lemma HasLabelKeys.union (hl : l.HasLabelKeys) (hm : m.HasLabelKeys) : (l.union m).HasLabelKeys :=
  hl.insertAll hm

lemma hasLabelKeys_ofList (hpairs : ∀ key ∈ pairs.map (·.1), IsLabelKey key) :
    (ofList pairs).HasLabelKeys :=
  hasLabelKeys_empty.insertAll hpairs

end Labels

/-! ### What the checks let pass -/

/-- What the check of the shared fields is for. -/
structure Objective.IsSound (o : Objective) : Prop where
  visible : ∃ c ∈ o.name.toList, Text.isBlank c = false
  budget : (Decimal.Binary.ofFloat o.budget).isFraction = true
  labels : o.labels.HasLabelKeys
  annotations : o.annotations.HasLabelKeys

lemma hasLabelKeys_of_find? {l : Labels} (h : l.keys.find? (!isLabelName ·) = none) :
    l.HasLabelKeys := by
  intro key hkey
  have hname := List.find?_eq_none.1 h key hkey
  exact isLabelKey_of_isLabelName (by simpa using hname)

lemma Objective.isSound_of_fault? {o : Objective} (h : o.fault? = none) : o.IsSound := by
  unfold fault? at h
  split at h
  · cases h
  · next hname =>
    split at h
    · cases h
    · next hbudget =>
      have hlabels : o.labels.keys.find? (!isLabelName ·) = none := by
        cases hfind : o.labels.keys.find? (!isLabelName ·) with
        | none => rfl
        | some key =>
          rw [hfind] at h
          cases h
      rw [hlabels] at h
      have hannotations : o.annotations.keys.find? (!isLabelName ·) = none :=
        Option.map_eq_none_iff.1 h
      refine ⟨?_, by simpa using hbudget, hasLabelKeys_of_find? hlabels,
        hasLabelKeys_of_find? hannotations⟩
      rw [Bool.not_eq_true, Text.isAllBlank, List.all_eq_false] at hname
      obtain ⟨c, hc, hblank⟩ := hname
      exact ⟨c, hc, by simpa using hblank⟩

namespace Slo

variable {s : Slo} {rs : List Rule}

lemma isSound_of_checkObjective {o : Objective} (h : checkObjective o = .ok ()) : o.IsSound := by
  unfold checkObjective at h
  split at h
  · cases h
  · next hfault => exact Objective.isSound_of_fault? hfault

lemma isSound_of_validate (h : s.validate = .ok ()) : s.objective.IsSound := by
  cases s <;> exact isSound_of_checkObjective (ok_of_then_ok h).1

/-- A deadline that passed the checks is at least a second. -/
lemma one_le_deadline_of_validate {b : BatchSlo} (h : (batch b).validate = .ok ()) :
    1 ≤ b.deadline.seconds := by
  have hdeadline := (ok_of_then_ok h).2
  split at hdeadline
  · cases hdeadline
  · next hseconds => omega

/-! ### The rules of one objective -/

lemma hasLabelKeys_params (s : Slo) : s.params.HasLabelKeys := by
  cases s with
  | batch s =>
    have hkeys : ∀ key ∈ ["deadline", "volume", "throughput"], IsLabelKey key := by decide
    exact Labels.hasLabelKeys_ofList hkeys
  | errorRate s =>
    have hkeys : ∀ key ∈ ["errors", "total"], IsLabelKey key := by decide
    exact Labels.hasLabelKeys_ofList hkeys
  | latency s =>
    have hkeys : ∀ key ∈ ["request_class", "total", "observation"], IsLabelKey key := by decide
    exact Labels.hasLabelKeys_ofList hkeys

end Slo

/-- The labels with the name of an objective. -/
lemma Objective.hasLabelKeys_join (o : Objective) {labels : Labels} (h : labels.HasLabelKeys) :
    (o.join labels).HasLabelKeys :=
  h.insert (by decide)

lemma Objective.hasLabelKeys_markerLabels {o : Objective} (h : o.IsSound) (template : String)
    {params : Labels} (hparams : params.HasLabelKeys) :
    (o.markerLabels template params).HasLabelKeys := by
  have hkeys : ∀ key ∈ ["template", "budget", "name"], IsLabelKey key := by decide
  exact (h.annotations.union hparams).insertAll hkeys

namespace Slo

variable {s : Slo} {rs : List Rule}

lemma hasLabelKeys_ownLabels (s : Slo) : s.ownLabels.HasLabelKeys := by
  cases s with
  | batch s => exact s.hasLabelKeys_join Labels.hasLabelKeys_empty
  | errorRate s => exact s.hasLabelKeys_join Labels.hasLabelKeys_empty
  | latency s =>
    have hkeys : ∀ key ∈ ["request_class"], IsLabelKey key := by decide
    exact s.hasLabelKeys_join (Labels.hasLabelKeys_ofList hkeys)

/-- All rules of an objective that passed the checks have keys that labels may have. -/
lemma hasLabelKeys_of_mem_rules (hs : s.objective.IsSound) (h : s.rules = .ok rs) :
    ∀ t ∈ rs, t.labels.HasLabelKeys := by
  obtain ⟨own, hown, rfl⟩ := rules_ok_iff_own.1 h
  intro t ht
  rcases List.mem_append.1 ht with ht | ht
  · simp only [sharedRules, Objective.rules, List.mem_cons, List.not_mem_nil, or_false] at ht
    rcases ht with rfl | rfl | rfl
    · exact Objective.hasLabelKeys_markerLabels hs _ s.hasLabelKeys_params
    · exact s.objective.hasLabelKeys_join Labels.hasLabelKeys_empty
    · exact s.objective.hasLabelKeys_join hs.labels
  · obtain ⟨expr, heq⟩ := (ownRules_ok hown).2 t ht
    rw [heq]
    exact s.hasLabelKeys_ownLabels

end Slo

/-! ### Names of series -/

/-- Series that are recorded as they are named. -/
def plainSeries : List String :=
  Slo.fixedNames ++ Kind.batch.ownSeries ++ [Series.batchError]

/-- Series that are recorded once per window. -/
def windowSeries : List String :=
  [Series.errors, Series.errorRateTotal, Series.latencyTotal, Series.latencyObservation,
    Series.errorRatio]

lemma isMetricName_plainSeries : ∀ n ∈ plainSeries, IsMetricName n := by
  decide +kernel

lemma isMetricName_windowSeries {series n : String} (hseries : series ∈ windowSeries)
    (hn : n ∈ seriesNames series) : IsMetricName n := by
  have hall : ∀ series ∈ windowSeries, IsMetricName series := by decide +kernel
  obtain ⟨w, hw, rfl⟩ := List.mem_map.1 hn
  exact isMetricName_append (hall series hseries) (isSeriesName_alertWindows w hw)

lemma Kind.isMetricName_ownSeries (k : Kind) : ∀ n ∈ k.ownSeries, IsMetricName n := by
  intro n hn
  cases k with
  | batch =>
    refine isMetricName_plainSeries n (List.mem_append_left _ (List.mem_append_right _ hn))
  | errorRate =>
    rcases List.mem_append.1 hn with hn | hn
    · exact isMetricName_windowSeries (by simp [windowSeries]) hn
    · exact isMetricName_windowSeries (by simp [windowSeries]) hn
  | latency =>
    rcases List.mem_append.1 hn with hn | hn
    · exact isMetricName_windowSeries (by simp [windowSeries]) hn
    · exact isMetricName_windowSeries (by simp [windowSeries]) hn

lemma Slo.isMetricName_of_mem_rules {s : Slo} {rs : List Rule} (h : s.rules = .ok rs) :
    ∀ t ∈ rs, IsMetricName t.name := by
  intro t ht
  have hname : t.name ∈ fixedNames ++ s.kind.ownSeries :=
    map_name_of_rules h ▸ List.mem_map_of_mem ht
  rcases List.mem_append.1 hname with hname | hname
  · exact isMetricName_plainSeries _ (List.mem_append_left _ (List.mem_append_left _ hname))
  · exact s.kind.isMetricName_ownSeries _ hname

lemma Kind.name_of_mem_ratioRules {k : Kind} {t : Rule} (h : t ∈ k.ratioRules) :
    t.name ∈ Series.batchError :: seriesNames Series.errorRatio := by
  have hratio {expr : String → String} (h : t ∈ ratioPerWindow expr) :
      t.name ∈ Series.batchError :: seriesNames Series.errorRatio := by
    obtain ⟨w, hw, rfl⟩ := List.mem_map.1 h
    exact List.mem_cons_of_mem _ (mem_seriesNames hw)
  cases k with
  | batch =>
    rcases List.mem_cons.1 h with rfl | h
    · exact List.mem_cons_self
    · exact hratio h
  | errorRate => exact hratio h
  | latency => exact hratio h

lemma Kind.isMetricName_of_mem_ratioRules {k : Kind} {t : Rule} (h : t ∈ k.ratioRules) :
    IsMetricName t.name := by
  rcases List.mem_cons.1 (name_of_mem_ratioRules h) with hname | hname
  · exact isMetricName_plainSeries _ (hname ▸ by simp [plainSeries])
  · exact isMetricName_windowSeries (by simp [windowSeries]) hname

/-! ### Budgets and targets -/

namespace Slo

variable {s : Slo} {rs : List Rule} {t : Rule}

lemma isFractionNumeral_of_rules (hs : s.objective.IsSound) (h : s.rules = .ok rs) (ht : t ∈ rs)
    (hname : t.name = Series.errorBudget) : Decimal.IsFractionNumeral t.expr := by
  obtain rfl := (brings_of_rules h).eq_budget ht hname
  exact Decimal.isFractionNumeral_numeral hs.budget

/-- Throughput targets are recorded for batch objectives alone, and are what is to be done in the
seconds up to the deadline. -/
lemma target_of_rules (h : s.rules = .ok rs) (ht : t ∈ rs)
    (hname : t.name = Series.batchThroughputTarget) :
    ∃ b, s = .batch b ∧ t.expr = b.targetText := by
  have hmem : Series.batchThroughputTarget ∈ fixedNames ++ s.kind.ownSeries := by
    rw [← map_name_of_rules h, ← hname]
    exact List.mem_map_of_mem ht
  cases s with
  | batch b =>
    cases h
    have htarget : .recording Series.batchThroughputTarget (b.join ∅) b.targetText ∈ b.rules := by
      simp [BatchSlo.rules]
    obtain rfl := List.inj_on_of_nodup_map (brings_of_rules (s := batch b) rfl).nodup ht htarget
      hname
    exact ⟨b, rfl, rfl⟩
  | errorRate b =>
    have hno : Series.batchThroughputTarget ∉ fixedNames ++ Kind.errorRate.ownSeries := by
      decide +kernel
    exact absurd hmem hno
  | latency b =>
    have hno : Series.batchThroughputTarget ∉ fixedNames ++ Kind.latency.ownSeries := by
      decide +kernel
    exact absurd hmem hno

end Slo

/-! ### The rules of a group -/

/-- What holds of the rules of a group for objectives, whose own rules are among them. -/
structure IsWellFormedGroup (slos : List Slo) (own rules : List Rule) : Prop where
  keys : ∀ t ∈ rules, ∀ key ∈ t.labels.keys, IsLabelKey key
  records : ∀ record labels expr, .recording record labels expr ∈ rules → IsMetricName record
  /-- The rules of objectives carry a name that can be seen. -/
  visible : ∀ t ∈ own, ∃ n, t.labels.get? nameLabel = some n ∧
    ∃ c ∈ n.toList, Text.isBlank c = false
  budgets : ∀ labels expr, .recording Series.errorBudget labels expr ∈ rules →
    Decimal.IsFractionNumeral expr
  /-- Targets divide by the seconds up to the deadline, which are not zero. -/
  targets : ∀ labels expr, .recording Series.batchThroughputTarget labels expr ∈ rules →
    ∃ b, .batch b ∈ slos ∧ labels.get? nameLabel = some b.name ∧ 1 ≤ b.deadline.seconds ∧
      ∃ front, expr = front ++ " / " ++ toString b.deadline.seconds

lemma recording_notMem_alertRules (record : String) (labels : Labels) (expr : String) :
    .recording record labels expr ∉ alertRules := by
  simp [alertRules, Burn.alert]

/-- The shared rules have no labels but those of the alerts. -/
lemma Registry.hasLabelKeys_of_mem_shared {r : Registry} {t : Rule}
    (h : t ∈ r.ratioRules ++ alertRules) : t.labels.HasLabelKeys := by
  rcases List.mem_append.1 h with h | h
  · obtain ⟨k, -, hk⟩ := List.mem_flatMap.1 h
    rw [(Kind.unnamed_of_mem_ratioRules hk).1]
    exact Labels.hasLabelKeys_empty
  · have hkeys : ∀ key ∈ ["severity"], IsLabelKey key := by decide
    simp only [alertRules, List.mem_cons, List.not_mem_nil, or_false] at h
    rcases h with rfl | rfl <;> exact Labels.hasLabelKeys_ofList hkeys

/-- A shared rule that is recorded is a ratio rule. -/
lemma Registry.exists_ratioRules_of_mem_shared {r : Registry} {record expr : String}
    {labels : Labels} (h : .recording record labels expr ∈ r.ratioRules ++ alertRules) :
    ∃ k, .recording record labels expr ∈ Kind.ratioRules k := by
  rcases List.mem_append.1 h with h | h
  · obtain ⟨k, -, hk⟩ := List.mem_flatMap.1 h
    exact ⟨k, hk⟩
  · exact absurd h (recording_notMem_alertRules record labels expr)

lemma isWellFormedGroup_append (r : Registry) {slos : List Slo} {rss : List (List Rule)}
    (hvalid : ∀ s ∈ slos, s.validate = .ok ())
    (hrules : List.Forall₂ (fun s rs => s.rules = .ok rs) slos rss) :
    IsWellFormedGroup slos rss.flatten (rss.flatten ++ (r.ratioRules ++ alertRules)) := by
  have hown {t : Rule} (ht : t ∈ rss.flatten) :
      ∃ s ∈ slos, s.validate = .ok () ∧ ∃ rs, s.rules = .ok rs ∧ t ∈ rs := by
    obtain ⟨rs, hrs, hmem⟩ := List.mem_flatten.1 ht
    obtain ⟨s, hs, hsrules⟩ := exists_of_mem_forall₂ hrules hrs
    exact ⟨s, hs, hvalid s hs, rs, hsrules, hmem⟩
  refine ⟨fun t ht => ?_, fun record labels expr ht => ?_, fun t ht => ?_,
    fun labels expr ht => ?_, fun labels expr ht => ?_⟩
  · rcases List.mem_append.1 ht with ht | ht
    · obtain ⟨s, -, hs, rs, hrs, hmem⟩ := hown ht
      exact Slo.hasLabelKeys_of_mem_rules (Slo.isSound_of_validate hs) hrs t hmem
    · exact Registry.hasLabelKeys_of_mem_shared ht
  · rcases List.mem_append.1 ht with ht | ht
    · obtain ⟨s, -, -, rs, hrs, hmem⟩ := hown ht
      exact Slo.isMetricName_of_mem_rules hrs _ hmem
    · obtain ⟨k, hk⟩ := Registry.exists_ratioRules_of_mem_shared ht
      exact Kind.isMetricName_of_mem_ratioRules hk
  · obtain ⟨s, -, hs, rs, hrs, hmem⟩ := hown ht
    exact ⟨s.name, ((Slo.brings_of_rules hrs).recorded t hmem).get?,
      (Slo.isSound_of_validate hs).visible⟩
  · rcases List.mem_append.1 ht with ht | ht
    · obtain ⟨s, -, hs, rs, hrs, hmem⟩ := hown ht
      exact Slo.isFractionNumeral_of_rules (Slo.isSound_of_validate hs) hrs hmem rfl
    · have hfixed : Series.errorBudget ∈ Slo.fixedNames := by decide
      exact absurd hfixed (r.unnamed_of_mem_shared ht).2
  · rcases List.mem_append.1 ht with ht | ht
    · obtain ⟨s, hmem, hs, rs, hrs, htrs⟩ := hown ht
      obtain ⟨b, rfl, hexpr⟩ := Slo.target_of_rules hrs htrs rfl
      exact ⟨b, hmem, ((Slo.brings_of_rules hrs).recorded _ htrs).get?,
        Slo.one_le_deadline_of_validate hs, _, hexpr⟩
    · have hno : Series.batchThroughputTarget ∉
          Series.batchError :: seriesNames Series.errorRatio := by decide +kernel
      obtain ⟨k, hk⟩ := Registry.exists_ratioRules_of_mem_shared ht
      exact absurd (Kind.name_of_mem_ratioRules hk) hno

namespace Pipeline

/-- **Well-formedness**: groups that are built from definitions that were read are well formed. -/
theorem build_isWellFormed {r : Registry} {documents : List String} {sss : List (List Slo)}
    {name : String} {p : Pipeline}
    (hparse : List.Forall₂ (fun d ss => parseDefinitions r d = .ok ss) documents sss)
    (hregister : registerAll { name } sss.flatten = .ok p) (r' : Registry) :
    ∃ rss, List.Forall₂ (fun s rs => s.rules = .ok rs) sss.flatten rss ∧
      p.build r' = ⟨[⟨name, rss.flatten ++ (r'.ratioRules ++ alertRules)⟩]⟩ ∧
      IsWellFormedGroup sss.flatten rss.flatten
        (rss.flatten ++ (r'.ratioRules ++ alertRules)) := by
  have hholds : Holds name p sss.flatten := (Holds.start name).registerAll hregister
  have hvalid : ∀ s ∈ sss.flatten, s.validate = .ok () := by
    intro s hs
    obtain ⟨ss, hss, hmem⟩ := List.mem_flatten.1 hs
    obtain ⟨d, -, hd⟩ := exists_of_mem_forall₂ hparse hss
    exact Definition.validate_of_parseDefinitions hd s hmem
  obtain ⟨rss, hrules, hbuild⟩ := hholds.build r'
  rw [List.append_assoc] at hbuild
  exact ⟨rss, hrules, hbuild, isWellFormedGroup_append r' hvalid hrules⟩

/-- A document that defines one job. -/
def copyDocument : String :=
  "definitions: [\x7btemplate: BatchProcessingSLO, definition: \x7bname: copy, budget: 0.25, "
    ++ "deadline: 2h, volume: '10', throughput: x\x7d\x7d]"

/-- The job of the document. -/
def copyBatch : BatchSlo where
  name := "copy"
  budget := 0.25
  deadline := .ofParts 7200 0
  volume := "10"
  throughput := "x"

lemma parseDefinitions_copyDocument :
    parseDefinitions .default copyDocument = .ok [.batch copyBatch] :=
  eq_ok_of_toOption (by decide +kernel)

theorem copyDocument_isWellFormed :
    ∃ b p, b.deadline = .ofParts 7200 0 ∧
      parseDefinitions .default copyDocument = .ok [.batch b] ∧
      registerAll { name := "jobs" } [.batch b] = .ok p ∧
      p.build .default =
        ⟨[⟨"jobs", b.rules ++ (Registry.default.ratioRules ++ alertRules)⟩]⟩ ∧
      IsWellFormedGroup [.batch b] b.rules
        (b.rules ++ (Registry.default.ratioRules ++ alertRules)) := by
  have hall : List.Forall₂ (fun d ss => parseDefinitions .default d = .ok ss) [copyDocument]
      [[.batch copyBatch]] := .cons parseDefinitions_copyDocument .nil
  obtain ⟨p, hregister⟩ : ∃ p, registerAll { name := "jobs" } [.batch copyBatch] = .ok p :=
    registerAll_start_ok_iff.2 ⟨by simp, by simp [Slo.rules]⟩
  obtain ⟨rss, hrules, hbuild, hgroup⟩ := build_isWellFormed hall hregister .default
  rcases hrules with _ | ⟨hb, _ | _⟩
  cases hb
  rw [List.flatten_singleton] at hbuild hgroup
  exact ⟨copyBatch, p, rfl, parseDefinitions_copyDocument, hregister, hbuild, hgroup⟩

end Pipeline

end BurnRate
