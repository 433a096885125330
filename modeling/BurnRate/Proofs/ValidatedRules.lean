import BurnRate.Pipeline
import BurnRate.Proofs.PipelineHistory
import BurnRate.Proofs.TotalTexts
import BurnRate.Proofs.TrimmedTexts
import BurnRate.Proofs.WindowRules
import BurnRate.Slo.Fault

/-!
What the validation of an objective promises for the generation of its rules.

Validation reads expressions without evaluating them, so it cannot promise that they render. The
rules are made exactly if every expression renders for every window, and validation is enough for
this where the expressions are total.
-/

namespace BurnRate

namespace PerWindow

/-- The rule whose expansion over the windows is recorded. -/
def template (p : PerWindow) : Rule :=
  .recording (p.series ++ "\x7b\x7b window \x7d\x7d") p.labels (Text.trim p.expr)

/-- What is rendered of the expression reads as a total text. -/
def IsTotal (p : PerWindow) : Prop :=
  ∀ ss, Expression.parse (Text.trim p.expr) = .ok ss → Expression.statementsTotal ss = true

end PerWindow

/-! ### Validated expressions -/

namespace Slo

lemma checkAllowed_ok {source : String} {allowed : List String}
    (h : Expression.checkAllowed source allowed = .ok ()) :
    ∃ ss, Expression.parse source = .ok ss ∧ ∀ n ∈ Expression.freeNames ss, n ∈ allowed := by
  unfold Expression.checkAllowed Expression.placeholders at h
  split at h
  · next ss hp =>
    refine ⟨ss, hp, fun n hn => ?_⟩
    simp only [bind, Except.bind] at h
    split at h
    · next hempty =>
      rw [List.isEmpty_iff, List.filter_eq_nil_iff] at hempty
      simpa using hempty n hn
    · cases h
  · cases h

lemma checkRequired_ok {source : String} {required : List String} {ss : List Expression.Statement}
    (hp : Expression.parse source = .ok ss)
    (h : Expression.checkRequired source required = .ok ()) :
    ∀ n ∈ required, n ∈ Expression.freeNames ss := by
  intro n hn
  simp only [Expression.checkRequired, Expression.placeholders, hp, bind, Except.bind] at h
  split at h
  · next hempty =>
    rw [List.isEmpty_iff, List.filter_eq_nil_iff] at hempty
    simpa using hempty n hn
  · cases h

/-- A field that passes its check reads as a text with the required names free, and no others than
the allowed ones. -/
lemma checkField_ok {field expr : String} {allowed required : List String}
    (h : checkField field expr allowed required = .ok ()) :
    ∃ ss, Expression.parse expr = .ok ss ∧
      (∀ n ∈ Expression.freeNames ss, n ∈ allowed) ∧
      ∀ n ∈ required, n ∈ Expression.freeNames ss := by
  unfold checkField at h
  split at h
  · cases h
  · cases ha : Expression.checkAllowed expr allowed with
    | error e =>
      rw [ha] at h
      cases h
    | ok u =>
      obtain ⟨ss, hp, hallowed⟩ := checkAllowed_ok ha
      refine ⟨ss, hp, hallowed, checkRequired_ok hp ?_⟩
      cases hr : Expression.checkRequired expr required with
      | error e =>
        rw [ha] at h
        simp only [bind, Except.bind, hr] at h
        cases h
      | ok u => rfl

/-- Every expression per window was checked for exactly the placeholders that have values. -/
lemma checkField_of_validate {s : Slo} (h : s.validate = .ok ()) {p : PerWindow}
    (hp : p ∈ s.perWindow) :
    ∃ field, checkField field p.expr p.placeholders p.placeholders = .ok () := by
  cases s with
  | batch s => cases hp
  | errorRate s =>
    obtain ⟨-, h⟩ := ok_of_then_ok h
    obtain ⟨herrors, htotal⟩ := ok_of_then_ok h
    rcases List.mem_pair.1 hp with rfl | rfl
    · exact ⟨_, herrors⟩
    · exact ⟨_, htotal⟩
  | latency s =>
    obtain ⟨-, h⟩ := ok_of_then_ok h
    obtain ⟨htotal, hobservation⟩ := ok_of_then_ok h
    rcases List.mem_pair.1 hp with rfl | rfl
    · exact ⟨_, htotal⟩
    · exact ⟨_, hobservation⟩

end Slo

namespace PerWindow

/-- A total expression that was checked for its placeholders renders for every window. -/
lemma IsTotal.renders {p : PerWindow} {field : String} (h : p.IsTotal)
    (hp : Slo.checkField field p.expr p.placeholders p.placeholders = .ok ()) : p.Renders := by
  -- the text is checked as it is given, and its trimmed form is rendered
  obtain ⟨ss, hparse, hallowed, -⟩ := Slo.checkField_ok (Slo.checkField_trim_ok hp)
  intro w _
  obtain ⟨t, ht⟩ := Expression.renderStatements_of_isTotal (h ss hparse)
    fun n hn => isSome_get?_valuesAt (hallowed n hn) w
  refine ⟨t, ?_⟩
  rw [textAt, renderExpression, Expression.render, hparse]
  simp only [ht]
  rfl

end PerWindow

/-! ### Rules as expansions over the windows -/

namespace Expression

lemma run_idle (m : Machine) : (StateT.pure () : Eval Unit).run m = .ok ((), m) := rfl

/-- A copied text in front of a placeholder, as the names of series are written. -/
lemma renderStatements_copy_emit {c name t : String} {values : Labels}
    (h : values.get? name = some t) :
    renderStatements [.copy c, .emit (.var name)] values = .ok (c ++ t) := by
  have hv : (Expr.eval (perform (maxDepth + 2)) (.var name)).Yields
      ((Machine.start values [.copy c, .emit (.var name)]).wrote c) (.ofText t) :=
    yields_var _ (Machine.lookup?_start h [.copy c, .emit (.var name)])
  rw [renderStatements, run_execAll_copy, run_execAll_emit _ hv rfl, execAll]
  simp [Machine.start, Value.ofText, Value.toText, bind, Except.bind, pure, Except.pure, run_idle]

/-- Every value that is not empty makes the same text of a condition. -/
lemma renderStatements_branch_copy {c name t : String} {values : Labels}
    (h : values.get? name = some t) (ht : t ≠ "") :
    renderStatements [.branch (.var name) [.copy c] []] values = .ok c := by
  let ss : List Statement := [.branch (.var name) [.copy c] []]
  have hv : (Expr.eval (perform (maxDepth + 2)) (.var name)).Yields
      (Machine.start values ss) (.ofText t) :=
    yields_var _ (Machine.lookup?_start h ss)
  have htrue : (Value.ofText t).isTrue = true := by
    simpa [Value.ofText, Value.isTrue] using ht
  rw [renderStatements, run_execAll_branch _ hv rfl, if_pos htrue, StateT.run_bind,
    run_execAll_copy, execAll]
  simp [Machine.start, bind, Except.bind, pure, Except.pure, run_idle]

/-- A filter that does not exist fails for whatever it is applied to. -/
lemma renderStatements_unknownFilter {c name t filter : String} {values : Labels}
    (h : values.get? name = some t)
    (hfilter : ∀ v, Value.applyFilter 1 filter v {} = .error .unknownFilter)
    (ss : List Statement) :
    renderStatements (.copy c :: .emit (.filter filter (some (.var name)) []) :: ss) values =
      .error .unknownFilter := by
  let ss' := .copy c :: .emit (.filter filter (some (.var name)) []) :: ss
  let m := Machine.start values ss'
  have hv : (Expr.eval (perform (maxDepth + 2)) (.var name)).Yields (m.wrote c) (.ofText t) :=
    yields_var _ (Machine.lookup?_start h ss')
  have he : (Expr.eval (perform (maxDepth + 2)) (.filter filter (some (.var name)) [])).run
      (m.wrote c) = .error .unknownFilter := by
    rw [run_filter _ hv rfl, hfilter]
    rfl
  rw [renderStatements, run_execAll_copy, run_execAll_emit_error _ he]
  rfl

end Expression

/-- Where no window repeats, a rule is expanded window by window. -/
lemma Rule.expandAfter_eq {rule : Rule} {extra : List (String × String)} {ws : List String}
    (hws : ws.Nodup) {before : List String} (hbefore : ∀ w ∈ ws, w ∉ before) :
    rule.expandAfter before extra ws =
      (ws.mapM fun w => rule.render (valuesAt extra w)).mapError .render := by
  induction ws generalizing before with
  | nil => rfl
  | cons w ws ih =>
    obtain ⟨hw, hws⟩ := List.nodup_cons.1 hws
    have hrest : ∀ v ∈ ws, v ∉ w :: before := by
      intro v hv hmem
      rcases List.mem_cons.1 hmem with rfl | hmem
      · exact hw hv
      · exact hbefore v (List.mem_cons_of_mem w hv) hmem
    have hnew : before.contains w = false := by simpa using hbefore w List.mem_cons_self
    rw [expandAfter, hnew, ih hws hrest, List.mapM_cons]
    cases rule.render (valuesAt extra w) with
    | error e => rfl
    | ok r => cases ws.mapM fun w => rule.render (valuesAt extra w) <;> rfl

namespace PerWindow

/-- The rules per window are those of the expansion of their template, in which no window repeats
and every name renders. -/
lemma expand_template {p : PerWindow}
    (hp : Expression.parse (p.series ++ "\x7b\x7b window \x7d\x7d") =
      .ok [.copy p.series, .emit (.var windowName)]) :
    p.template.expand alertWindows p.extra = p.rules.mapError .render := by
  have hname (w : String) : renderExpression (p.series ++ "\x7b\x7b window \x7d\x7d")
      (valuesAt p.extra w) = .ok (p.series ++ w) := by
    rw [renderExpression, Expression.render, hp]
    simp only [Expression.renderStatements_copy_emit (get?_valuesAt_window p.extra w)]
    rfl
  have hrender (w : String) : p.template.render (valuesAt p.extra w) =
      (p.textAt w).map (Rule.recording (p.series ++ w) p.labels) := by
    rw [template, Rule.render, hname, textAt]
    cases renderExpression (Text.trim p.expr) (valuesAt p.extra w) <;> rfl
  have hnodup : alertWindows.Nodup := by decide
  rw [Rule.expand, Rule.expandAfter_eq hnodup (by simp), rules_eq]
  simp only [hrender]

end PerWindow

namespace Slo

lemma parse_series {s : Slo} {p : PerWindow} (hp : p ∈ s.perWindow) :
    Expression.parse (p.series ++ "\x7b\x7b window \x7d\x7d") =
      .ok [.copy p.series, .emit (.var windowName)] := by
  have hseries : p.series ∈ [Series.errors, Series.errorRateTotal, Series.latencyTotal,
      Series.latencyObservation] := by
    cases s <;> simp [perWindow] at hp <;> rcases hp with rfl | rfl <;>
      simp [LatencySlo.observations]
  generalize p.series = series at hseries ⊢
  fin_cases hseries <;> rfl

/-- A registration fails for a name that is known, and otherwise for the rules. -/
lemma register_error_iff {s : Slo} {q : Pipeline} {e : PipelineError} :
    q.register s = .error e ↔
      (s.name ∈ q.registered ∧ e = .duplicateSlo s.name) ∨
        (s.name ∉ q.registered ∧ ∃ r, s.FirstFailure r ∧ e = .expansion (.render r)) := by
  by_cases hname : s.name ∈ q.registered
  · rw [Pipeline.register_of_mem hname]
    simp [hname, eq_comm]
  · cases hrules : s.rules with
    | error r =>
      have hfirst (r' : RenderError) : s.FirstFailure r' ↔ r = r' := by
        rw [← rules_error_iff, hrules, Except.error.injEq]
      rw [Pipeline.register_of_error hname hrules]
      simp [hname, hfirst, eq_comm]
    | ok rs =>
      obtain ⟨q', hq'⟩ := Pipeline.register_of_ok hname hrules
      have hfirst (r : RenderError) : ¬ s.FirstFailure r := by
        rw [← rules_error_iff, hrules]
        exact nofun
      rw [hq']
      simp [hname, hfirst]

/-- **What validation promises for the rules.** The checks do not evaluate an expression, so that
each expression renders for each window remains as a condition; it is the only one, and total
expressions meet it. -/
theorem rules_of_validate (s : Slo) (h : s.validate = .ok ()) :
    -- rules are made exactly if every expression renders for every window
    ((∃ rs, s.rules = .ok rs) ↔ ∀ p ∈ s.perWindow, p.Renders) ∧
    -- and the error is that of the first expression and window that fail
    (∀ e, s.rules = .error e ↔ s.FirstFailure e) ∧
    -- no window repeats, and no name of a series fails to render
    (∀ p ∈ s.perWindow, p.template.expand alertWindows p.extra = p.rules.mapError .render) ∧
    -- where the expressions are total, the checks are enough
    ((∀ p ∈ s.perWindow, p.IsTotal) → ∃ rs, s.rules = .ok rs) ∧
    -- a registration fails for a known name or else for that error
    (∀ (q : Pipeline) (e : PipelineError), q.register s = .error e ↔
      (s.name ∈ q.registered ∧ e = .duplicateSlo s.name) ∨
      (s.name ∉ q.registered ∧ ∃ r, s.FirstFailure r ∧ e = .expansion (.render r))) := by
  refine ⟨rules_ok_iff, fun e => rules_error_iff, fun p hp => p.expand_template (parse_series hp),
    fun htotal => rules_ok_iff.2 fun p hp => ?_, fun q e => register_error_iff⟩
  obtain ⟨field, hfield⟩ := checkField_of_validate h hp
  exact (htotal p hp).renders hfield

/-- The rate of all requests. -/
def allRequests : String := "rate(t[\x7b\x7b window \x7d\x7d])"

/-- Requests that fail, of all requests. -/
def requestErrors (errors : String) : Slo :=
  .errorRate { name := "api", budget := 0.5, errors := errors, total := allRequests }

/-- What a text reads as can be checked. -/
lemma forall_parse {e : String} (P : List Expression.Statement → Bool)
    (h : (Expression.parse e).toOption.all P = true) :
    ∀ ss, Expression.parse e = .ok ss → P ss = true := by
  intro ss hss
  rwa [hss] at h

lemma isTotal_allRequests {series : String} {labels : Labels} :
    PerWindow.IsTotal ⟨series, labels, allRequests, []⟩ :=
  forall_parse (e := Text.trim allRequests) Expression.statementsTotal (by decide +kernel)

lemma isTotal_requestErrors {errors : String}
    (h : (Expression.parse (Text.trim errors)).toOption.all Expression.statementsTotal = true) :
    ∀ p ∈ (requestErrors errors).perWindow, p.IsTotal := by
  intro p hp
  rcases List.mem_pair.1 hp with rfl | rfl
  · exact forall_parse _ h
  · exact isTotal_allRequests

/-- A text that assigns and branches, with a filter and a test that cannot fail. -/
def branching : String :=
  "\x7b% set w = window|lower %\x7drate(e[\x7b\x7b w \x7d\x7d])"
    ++ "\x7b% if w is string and w != '1m' %\x7d > 0\x7b% endif %\x7d"

def unknownFilter : String := "rate(e[\x7b\x7b window|nofilter \x7d\x7d])"

theorem rules_requestErrors_branching :
    (requestErrors branching).validate = .ok () ∧
      ∃ rs, (requestErrors branching).rules = .ok rs := by
  have h : (requestErrors branching).validate = .ok () := eq_ok_of_toOption (by decide +kernel)
  exact ⟨h, (rules_of_validate _ h).2.2.2.1 (isTotal_requestErrors (by decide +kernel))⟩

/-- A filter that does not exist passes the checks and fails to render. -/
theorem rules_requestErrors_unknownFilter :
    (requestErrors unknownFilter).validate = .ok () ∧
      (requestErrors unknownFilter).rules = .error ⟨unknownFilter, "unknown filter"⟩ := by
  refine ⟨eq_ok_of_toOption (by decide +kernel), rules_error_iff.2 ?_⟩
  refine ⟨[], ⟨Series.errors, _, unknownFilter, []⟩, _, rfl, by simp, [], "1m", _, rfl, by simp, ?_⟩
  have htrim : Text.trim unknownFilter = unknownFilter := by decide +kernel
  have hparse : Expression.parse unknownFilter =
      .ok [.copy "rate(e[", .emit (.filter "nofilter" (some (.var "window")) []), .copy "])"] := by
    rfl
  have hfails : Expression.renderStatements
      [.copy "rate(e[", .emit (.filter "nofilter" (some (.var "window")) []), .copy "])"]
      (valuesAt [] "1m") = .error .unknownFilter :=
    Expression.renderStatements_unknownFilter (get?_valuesAt_window [] "1m") (fun _ => rfl) _
  simp only [PerWindow.textAt, htrim, renderExpression, Expression.render, hparse, hfails]
  rfl

end Slo

end BurnRate
