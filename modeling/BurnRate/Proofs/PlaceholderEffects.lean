import BurnRate.Proofs.DirectTexts
import BurnRate.Proofs.ValidatedRules

/-!
Where the required placeholders show in the rules of an objective.

Validation asks that the placeholders occur, which does not yet make the rules of two windows
differ. They differ exactly if the rendered expressions do, and they do for direct expressions.
-/

namespace BurnRate

open Expression (IsVariant)

/-! ### Values of one placeholder -/

lemma RequestClass.bucket_injective {c d : RequestClass} (h : c.bucket = d.bucket) : c = d := by
  cases c <;> cases d <;> first | rfl | (revert h; decide)

lemma entries_valuesAt_nil (w : String) : (valuesAt [] w).entries = [(windowName, w)] := rfl

lemma entries_valuesAt_bucket (b w : String) :
    (valuesAt [(bucketName, b)] w).entries = [(bucketName, b), (windowName, w)] := by
  have hlt : ¬ windowName < bucketName := by decide
  simp only [valuesAt, Labels.ofList, Labels.insertAll, List.foldl_cons, List.foldl_nil,
    Labels.insert, Labels.empty, Labels.put, if_neg hlt]
  rfl

lemma isVariant_window {extra : List (String × String)}
    (h : extra = [] ∨ ∃ b, extra = [(bucketName, b)]) (w v : String) :
    IsVariant windowName w (valuesAt extra v) (valuesAt extra w) := by
  rcases h with rfl | ⟨b, rfl⟩
  · simp [IsVariant, entries_valuesAt_nil]
  · have hne : bucketName ≠ windowName := by decide
    simp [IsVariant, entries_valuesAt_bucket, hne]

lemma isVariant_bucket (w b c : String) :
    IsVariant bucketName b (valuesAt [(bucketName, c)] w) (valuesAt [(bucketName, b)] w) := by
  have hne : windowName ≠ bucketName := by decide
  simp [IsVariant, entries_valuesAt_bucket, hne]

/-! ### Direct expressions -/

namespace PerWindow

/-- In what is rendered of the expression, the name occurs only as placeholders of its own. -/
def IsDirect (p : PerWindow) (x : String) : Prop :=
  ∀ ss, Expression.parse (Text.trim p.expr) = .ok ss → Expression.IsDirect x ss

/-- Whatever is recorded of a direct expression, it is the same pieces around the value of the name,
or the same error. -/
lemma IsDirect.exists_pieces {p : PerWindow} {x field : String} (hd : p.IsDirect x)
    (hfield : Slo.checkField field p.expr p.placeholders p.placeholders = .ok ())
    (hx : x ∈ p.placeholders) (hcaller : x ≠ "caller") {base : Labels}
    (hbase : (base.get? x).isSome) :
    (∃ e, ∀ q : PerWindow, q.expr = p.expr → ∀ t w, IsVariant x t base (valuesAt q.extra w) →
      q.textAt w = .error e) ∨
    ∃ pieces, none ∈ pieces ∧
      ∀ q : PerWindow, q.expr = p.expr → ∀ t w, IsVariant x t base (valuesAt q.extra w) →
        q.textAt w = .ok (String.ofList (Expression.fill t pieces)) := by
  obtain ⟨ss, hparse, -, hrequired⟩ := Slo.checkField_ok (Slo.checkField_trim_ok hfield)
  have hdirect := hd ss hparse
  have htext (q : PerWindow) (hq : q.expr = p.expr) (w : String) : q.textAt w =
      (Expression.renderStatements ss (valuesAt q.extra w)).mapError
        fun cause => ⟨Text.trim p.expr, cause.text⟩ := by
    simp only [textAt, hq, renderExpression, Expression.render, hparse]
  rcases Expression.renderStatements_of_isDirect hcaller hdirect hbase with
    ⟨c, hc⟩ | ⟨pieces, hgap, hpieces⟩
  · refine .inl ⟨⟨Text.trim p.expr, c.text⟩, fun q hq t w h => ?_⟩
    rw [htext q hq, hc t _ h]
    rfl
  · refine .inr ⟨pieces, hgap (hdirect.exists_shows (hrequired x hx)), ?_⟩
    intro q hq t w h
    rw [htext q hq, hpieces t _ h]
    rfl

/-- The recorded expressions differ exactly if those of any two windows do. -/
lemma nodup_exprs_iff {p : PerWindow} {rs : List Rule} (h : p.rules = .ok rs) :
    (rs.map Rule.expr).Nodup ↔
      ∀ v ∈ alertWindows, ∀ w ∈ alertWindows, p.textAt v = p.textAt w → v = w := by
  have hwindows : alertWindows.Nodup := by decide
  have hok : Function.Injective (Except.ok : String → Except RenderError String) :=
    fun _ _ => Except.ok.inj
  rw [← List.nodup_map_iff_inj_on hwindows, map_textAt_of_rules_eq_ok h, ← List.nodup_map_iff hok,
    List.map_map]
  rfl

/-- Two series differ in every expression exactly if they do so for every window. -/
lemma forall₂_exprs_iff {p q : PerWindow} {rs rs' : List Rule} (h : p.rules = .ok rs)
    (h' : q.rules = .ok rs') :
    List.Forall₂ (fun r r' => r.expr ≠ r'.expr) rs rs' ↔
      ∀ w ∈ alertWindows, p.textAt w ≠ q.textAt w := by
  have hok : List.Forall₂ (fun r r' : Rule => r.expr ≠ r'.expr) rs rs' ↔
      List.Forall₂ (· ≠ ·) (rs.map fun r => (.ok r.expr : Except RenderError String))
        (rs'.map fun r => .ok r.expr) := by
    simp [List.forall₂_map_left_iff, List.forall₂_map_right_iff]
  rw [hok, ← map_textAt_of_rules_eq_ok h, ← map_textAt_of_rules_eq_ok h', List.forall₂_map_left_iff,
    List.forall₂_map_right_iff, List.forall₂_same]

end PerWindow

namespace Slo

lemma extra_of_mem {s : Slo} {p : PerWindow} (hp : p ∈ s.perWindow) :
    p.extra = [] ∨ ∃ b, p.extra = [(bucketName, b)] := by
  cases s with
  | batch s => cases hp
  | errorRate s =>
    rcases List.mem_pair.1 hp with rfl | rfl
    · exact .inl rfl
    · exact .inl rfl
  | latency s =>
    rcases List.mem_pair.1 hp with rfl | rfl
    · exact .inl rfl
    · exact .inr ⟨_, rfl⟩

/-- Direct expressions of a validated objective differ between windows, where they render. -/
lemma textAt_injective_of_isDirect {s : Slo} (h : s.validate = .ok ()) {p : PerWindow}
    (hp : p ∈ s.perWindow) (hd : p.IsDirect windowName) (hrenders : p.Renders) :
    ∀ v ∈ alertWindows, ∀ w ∈ alertWindows, p.textAt v = p.textAt w → v = w := by
  obtain ⟨field, hfield⟩ := checkField_of_validate h hp
  have hbase : ((valuesAt p.extra "").get? windowName).isSome := by
    rw [get?_valuesAt_window]
    rfl
  have hvariant (w : String) := isVariant_window (extra_of_mem hp) w ""
  intro v hv w hw heq
  rcases hd.exists_pieces hfield List.mem_cons_self (by decide) hbase with
    ⟨e, he⟩ | ⟨pieces, hgap, hpieces⟩
  · obtain ⟨t, ht⟩ := hrenders v hv
    rw [he p rfl v v (hvariant v)] at ht
    cases ht
  · rw [hpieces p rfl v v (hvariant v), hpieces p rfl w w (hvariant w)] at heq
    exact Expression.fill_injective hgap (String.ofList_injective (Except.ok.inj heq))

/-- The bucket in a direct expression tells the classes apart, and no class fails to render. -/
lemma textAt_ne_of_isDirect {l : LatencySlo} (h : (latency l).validate = .ok ())
    (hd : l.observations.IsDirect bucketName) (hrenders : l.observations.Renders)
    {c : RequestClass} (hc : c ≠ l.requestClass) :
    let l' := { l with requestClass := c }
    l'.observations.Renders ∧
      ∀ w ∈ alertWindows, l.observations.textAt w ≠ l'.observations.textAt w := by
  intro l'
  have hmem : l.observations ∈ (latency l).perWindow := by simp [perWindow]
  obtain ⟨field, hfield⟩ := checkField_of_validate h hmem
  have hplaceholder : bucketName ∈ l.observations.placeholders := by
    simp [PerWindow.placeholders, LatencySlo.observations]
  have hpieces (w : String) (hw : w ∈ alertWindows) : ∃ pieces, none ∈ pieces ∧
      ∀ q : LatencySlo, q.observation = l.observation → q.observations.textAt w =
        .ok (String.ofList (Expression.fill q.requestClass.bucket pieces)) := by
    have hbase : ((valuesAt [(bucketName, "")] w).get? bucketName).isSome := by
      simp [Labels.get?, entries_valuesAt_bucket]
    have hvariant (q : LatencySlo) := isVariant_bucket w q.requestClass.bucket ""
    rcases hd.exists_pieces hfield hplaceholder (by decide) hbase with
      ⟨e, he⟩ | ⟨pieces, hgap, hpieces⟩
    · obtain ⟨t, ht⟩ := hrenders w hw
      rw [he l.observations rfl _ w (hvariant l)] at ht
      cases ht
    · exact ⟨pieces, hgap, fun q hq => hpieces q.observations hq _ w (hvariant q)⟩
  have hbucket : l.requestClass.bucket ≠ c.bucket := fun heq =>
    hc (RequestClass.bucket_injective heq).symm
  refine ⟨fun w hw => ?_, fun w hw heq => ?_⟩
  · obtain ⟨pieces, -, htext⟩ := hpieces w hw
    exact ⟨_, htext l' rfl⟩
  · obtain ⟨pieces, hgap, htext⟩ := hpieces w hw
    rw [htext l rfl, htext l' rfl] at heq
    exact hbucket (Expression.fill_injective hgap (String.ofList_injective (Except.ok.inj heq)))

/-- **What the required placeholders do.** That a placeholder occurs does not make the recorded
expressions differ. They differ exactly if the rendered texts do, for windows and for classes, and
those of direct expressions do, whatever else is evaluated around the placeholder. -/
theorem placeholders_take_effect (s : Slo) (h : s.validate = .ok ()) (rs : List Rule)
    (hrs : s.rules = .ok rs) :
    (∀ p ∈ s.perWindow,
      -- there is one rule per window, in order
      (p.recorded rs).map Rule.name = seriesNames p.series ∧
      -- their expressions differ exactly if the texts for any two windows do
      (((p.recorded rs).map Rule.expr).Nodup ↔
        ∀ v ∈ alertWindows, ∀ w ∈ alertWindows, p.textAt v = p.textAt w → v = w) ∧
      -- which those of direct expressions do
      (p.IsDirect windowName → ((p.recorded rs).map Rule.expr).Nodup)) ∧
    ∀ l, s = .latency l → ∀ c, c ≠ l.requestClass →
      let l' := { l with requestClass := c }
      -- another class changes every observation exactly if it changes the text for each window
      (∀ rs', l'.rules = .ok rs' →
        (List.Forall₂ (fun r r' => r.expr ≠ r'.expr) (l.observations.recorded rs)
            (l'.observations.recorded rs') ↔
          ∀ w ∈ alertWindows, l.observations.textAt w ≠ l'.observations.textAt w)) ∧
      -- which it does for direct expressions, and the rules can still be made
      (l.observations.IsDirect bucketName → ∃ rs', l'.rules = .ok rs' ∧
        List.Forall₂ (fun r r' => r.expr ≠ r'.expr) (l.observations.recorded rs)
          (l'.observations.recorded rs')) := by
  have hrenders := rules_ok_iff.1 ⟨rs, hrs⟩
  refine ⟨fun p hp => ?_, ?_⟩
  · have hprules := rules_recorded hrs p hp
    have hdiffer := PerWindow.nodup_exprs_iff hprules
    exact ⟨PerWindow.map_name_of_rules_eq_ok hprules, hdiffer,
      fun hd => hdiffer.2 (textAt_injective_of_isDirect h hp hd (hrenders p hp))⟩
  · rintro l rfl c hc l'
    have hmem (l : LatencySlo) : l.observations ∈ (latency l).perWindow := by simp [perWindow]
    have hdiffer {rs' : List Rule} (hrs' : l'.rules = .ok rs') :=
      PerWindow.forall₂_exprs_iff (rules_recorded hrs _ (hmem l))
        (rules_recorded (s := latency l') hrs' _ (hmem l'))
    refine ⟨fun rs' hrs' => hdiffer hrs', fun hd => ?_⟩
    obtain ⟨hobservations, htexts⟩ :=
      textAt_ne_of_isDirect h hd (hrenders l.observations (hmem l)) hc
    -- the class does not reach the other series
    have htotal := hrenders _ List.mem_cons_self
    obtain ⟨rs', hrs'⟩ := rules_ok_iff (s := latency l').2 fun p hp => by
      rcases List.mem_pair.1 hp with rfl | rfl
      · exact htotal
      · exact hobservations
    exact ⟨rs', hrs', (hdiffer hrs').2 htexts⟩

/-- Requests that are fast enough, by the bucket of their class. -/
def requestLatency : LatencySlo where
  name := "api"
  budget := 0.5
  requestClass := .fast
  total := allRequests
  observation := "rate(b\x7ble='\x7b\x7b le \x7d\x7d'\x7d[\x7b\x7b window \x7d\x7d])"

lemma validate_requestLatency : (latency requestLatency).validate = .ok () :=
  eq_ok_of_toOption (by decide +kernel)

lemma rules_requestLatency : ∃ rs, (latency requestLatency).rules = .ok rs := by
  refine rules_ok_iff.2 fun p hp => ?_
  obtain ⟨field, hfield⟩ := checkField_of_validate validate_requestLatency hp
  refine PerWindow.IsTotal.renders ?_ hfield
  rcases List.mem_pair.1 hp with rfl | rfl
  · exact isTotal_allRequests
  · exact forall_parse Expression.statementsTotal (by decide +kernel)

lemma isDirect_allRequests {series : String} {labels : Labels} :
    PerWindow.IsDirect ⟨series, labels, allRequests, []⟩ windowName := by
  have hdirect := forall_parse (e := Text.trim allRequests)
    (fun ss => decide (Expression.IsDirect windowName ss)) (by decide +kernel)
  exact fun ss hss => of_decide_eq_true (hdirect ss hss)

lemma isDirect_observations {x : String} (hx : x = windowName ∨ x = bucketName) :
    requestLatency.observations.IsDirect x := by
  refine fun ss hss => of_decide_eq_true ?_
  rcases hx with rfl | rfl
  · exact forall_parse (fun ss => decide (Expression.IsDirect windowName ss))
      (by decide +kernel) ss hss
  · exact forall_parse (fun ss => decide (Expression.IsDirect bucketName ss))
      (by decide +kernel) ss hss

theorem placeholders_requestLatency :
    ∃ rs rs', (latency requestLatency).rules = .ok rs ∧
      (latency { requestLatency with requestClass := .slow }).rules = .ok rs' ∧
      (∀ p ∈ (latency requestLatency).perWindow, ((p.recorded rs).map Rule.expr).Nodup) ∧
      List.Forall₂ (fun r r' => r.expr ≠ r'.expr) (requestLatency.observations.recorded rs)
        ({ requestLatency with requestClass := .slow }.observations.recorded rs') := by
  obtain ⟨rs, hrs⟩ := rules_requestLatency
  obtain ⟨hwindows, hclasses⟩ :=
    placeholders_take_effect (latency requestLatency) validate_requestLatency rs hrs
  obtain ⟨rs', hrs', hdiffer⟩ :=
    (hclasses requestLatency rfl .slow (by decide)).2 (isDirect_observations (.inr rfl))
  refine ⟨rs, rs', hrs, hrs', fun p hp => (hwindows p hp).2.2 ?_, hdiffer⟩
  rcases List.mem_pair.1 hp with rfl | rfl
  · exact isDirect_allRequests
  · exact isDirect_observations (.inl rfl)

/-- A text with the window as a condition alone. -/
def conditional : String := "\x7b% if window %\x7dup\x7b% endif %\x7d"

lemma textAt_conditional {series : String} {labels : Labels} {w : String} (hw : w ∈ alertWindows) :
    PerWindow.textAt ⟨series, labels, conditional, []⟩ w = .ok "up" := by
  have htrim : Text.trim conditional = conditional := by decide +kernel
  have hparse : Expression.parse conditional =
      .ok [.branch (.var windowName) [.copy "up"] []] := by
    rfl
  have hnonempty : w ≠ "" := by
    rintro rfl
    exact absurd hw (by decide)
  have hup := Expression.renderStatements_branch_copy (c := "up")
    (get?_valuesAt_window [] w) hnonempty
  simp only [PerWindow.textAt, htrim, renderExpression, Expression.render, hparse, hup]
  rfl

/-- A placeholder that occurs in a condition alone passes the checks, and all windows get the same
expression. -/
theorem rules_requestErrors_conditional :
    (requestErrors conditional).validate = .ok () ∧
      ∃ rs, (requestErrors conditional).rules = .ok rs ∧
        ∃ p ∈ (requestErrors conditional).perWindow,
          ¬ ((p.recorded rs).map Rule.expr).Nodup := by
  have h : (requestErrors conditional).validate = .ok () := eq_ok_of_toOption (by decide +kernel)
  have htotal : ∀ p ∈ (requestErrors conditional).perWindow, p.IsTotal :=
    isTotal_requestErrors (by decide +kernel)
  obtain ⟨rs, hrs⟩ : ∃ rs, (requestErrors conditional).rules = .ok rs := by
    refine rules_ok_iff.2 fun p hp => ?_
    obtain ⟨field, hfield⟩ := checkField_of_validate h hp
    exact (htotal p hp).renders hfield
  refine ⟨h, rs, hrs, _, List.mem_cons_self, ?_⟩
  have hrules := rules_recorded hrs _ List.mem_cons_self
  rw [PerWindow.nodup_exprs_iff hrules]
  intro hinjective
  have hsame : "1m" = "5m" := hinjective "1m" (by decide) "5m" (by decide) <| by
    rw [textAt_conditional (by decide), textAt_conditional (by decide)]
  exact absurd hsame (by decide)

end Slo

end BurnRate
