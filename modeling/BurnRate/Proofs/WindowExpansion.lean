import BurnRate.Proofs.LabelLookups
import BurnRate.Proofs.Results
import BurnRate.Window
import Mathlib.Data.List.Forall2

/-!
Expansion window by window.

Whether a window fails is decided by the window and those before it, and the first one that fails
decides the error. If there is none, each window has its rule. Lists that have no window in common
are expanded one after the other.
-/

namespace BurnRate

/-- Of the extra values of a name the last one counts, and for the window none. -/
lemma get?_valuesAt (extra : List (String × String)) (w n : String) :
    (valuesAt extra w).get? n = if n = windowName then some w else extra.reverse.lookup n := by
  rw [valuesAt, Labels.get?_insert, Labels.get?_ofList]

namespace Rule

/-- The rule with another name and another expression; its kind, its labels and how long it has to
hold stay. -/
def withTexts (name expr : String) : Rule → Rule
  | recording _ labels _ => recording name labels expr
  | alerting _ hold labels _ => alerting name hold labels expr

/-! ### One rule -/

lemma render_eq (rule : Rule) (values : Labels) :
    rule.render values = do
      let name ← renderExpression rule.name values
      return rule.withTexts name (← renderExpression rule.expr values) := by
  cases rule <;> rfl

section

variable {rule : Rule} {values : Labels}

lemma render_eq_ok_iff {r : Rule} :
    rule.render values = .ok r ↔
      ∃ name expr, renderExpression rule.name values = .ok name ∧
        renderExpression rule.expr values = .ok expr ∧ r = rule.withTexts name expr := by
  simp only [render_eq, bind_eq_ok_iff, pure, Except.pure, Except.ok.injEq, eq_comm (a := r),
    exists_and_left]

lemma render_eq_error_iff {e : RenderError} :
    rule.render values = .error e ↔
      renderExpression rule.name values = .error e ∨
        ∃ name, renderExpression rule.name values = .ok name ∧
          renderExpression rule.expr values = .error e := by
  simp only [render_eq, bind_eq_error_iff, pure, Except.pure, reduceCtorEq, and_false,
    exists_false, or_false]

end

/-! ### One window -/

/-- The rule that a rule becomes for one window. -/
def BecomesAt (rule : Rule) (extra : List (String × String)) (w : String) (r : Rule) : Prop :=
  ∃ name expr, renderExpression rule.name (valuesAt extra w) = .ok name ∧
    renderExpression rule.expr (valuesAt extra w) = .ok expr ∧ r = rule.withTexts name expr

/-- Why a window behind some others fails. -/
inductive FailsAt (rule : Rule) (extra : List (String × String)) (before : List String)
    (w : String) : ExpansionError → Prop where
  | repeated (hw : w ∈ before) : FailsAt rule extra before w (.duplicateWindow w)
  | name {e : RenderError} (hw : w ∉ before)
      (hname : renderExpression rule.name (valuesAt extra w) = .error e) :
      FailsAt rule extra before w (.render e)
  | expr {e : RenderError} {name : String} (hw : w ∉ before)
      (hname : renderExpression rule.name (valuesAt extra w) = .ok name)
      (hexpr : renderExpression rule.expr (valuesAt extra w) = .error e) :
      FailsAt rule extra before w (.render e)

variable {rule : Rule} {extra : List (String × String)} {before others ws : List String}
  {w : String} {e : ExpansionError}

lemma failsAt_iff :
    rule.FailsAt extra before w e ↔
      (w ∈ before ∧ e = .duplicateWindow w) ∨
        (w ∉ before ∧ ∃ c, rule.render (valuesAt extra w) = .error c ∧ e = .render c) := by
  constructor
  · rintro (hw | ⟨hw, hname⟩ | ⟨hw, hname, hexpr⟩)
    · exact .inl ⟨hw, rfl⟩
    · exact .inr ⟨hw, _, render_eq_error_iff.2 (.inl hname), rfl⟩
    · exact .inr ⟨hw, _, render_eq_error_iff.2 (.inr ⟨_, hname, hexpr⟩), rfl⟩
  · rintro (⟨hw, rfl⟩ | ⟨hw, c, hc, rfl⟩)
    · exact .repeated hw
    · rcases render_eq_error_iff.1 hc with hname | ⟨name, hname, hexpr⟩
      · exact .name hw hname
      · exact .expr hw hname hexpr

/-- It only counts which windows come before. -/
lemma failsAt_congr (h : w ∈ before ↔ w ∈ others) :
    rule.FailsAt extra before w e ↔ rule.FailsAt extra others w e := by
  rw [failsAt_iff, failsAt_iff, h]

/-- The first window of some decides: it fails, or it has its rule and the others follow. -/
lemma expandAfter_cons (rule : Rule) (extra : List (String × String)) (before ws : List String)
    (w : String) :
    (∃ e, (∀ e', rule.FailsAt extra before w e' ↔ e' = e) ∧
        rule.expandAfter before extra (w :: ws) = .error e) ∨
      ∃ r, (∀ e, ¬ rule.FailsAt extra before w e) ∧ w ∉ before ∧
        (∀ r', rule.BecomesAt extra w r' ↔ r' = r) ∧
        rule.expandAfter before extra (w :: ws) =
          (rule.expandAfter (w :: before) extra ws).map (r :: ·) := by
  by_cases hw : w ∈ before
  · refine .inl ⟨.duplicateWindow w, fun e' => ?_, ?_⟩
    · simp [failsAt_iff, hw]
    · simp [expandAfter, hw]
  · cases hr : rule.render (valuesAt extra w) with
    | error c =>
      refine .inl ⟨.render c, fun e' => ?_, ?_⟩
      · simp [failsAt_iff, hw, hr]
      · simp [expandAfter, hw, hr, Except.mapError, bind, Except.bind]
    | ok r =>
      refine .inr ⟨r, fun e => ?_, hw, fun r' => ?_, ?_⟩
      · simp [failsAt_iff, hw, hr]
      · rw [BecomesAt, ← render_eq_ok_iff, hr, Except.ok.injEq, eq_comm]
      · simp only [expandAfter, List.contains_iff_mem, hw, if_false, hr, Except.mapError]
        cases rule.expandAfter (w :: before) extra ws <;> rfl

/-! ### Windows in a row -/

lemma expandAfter_ok_iff {rs : List Rule} :
    rule.expandAfter before extra ws = .ok rs ↔
      ws.Nodup ∧ (∀ w ∈ ws, w ∉ before) ∧ List.Forall₂ (rule.BecomesAt extra) ws rs := by
  induction ws generalizing before rs with
  | nil => simp [expandAfter, eq_comm]
  | cons w ws ih =>
    have hfresh : (∀ v ∈ ws, v ∉ w :: before) ↔ w ∉ ws ∧ ∀ v ∈ ws, v ∉ before := by
      simp only [List.mem_cons, not_or, forall_and]
      exact and_congr_left fun _ =>
        ⟨fun h hmem => h w hmem rfl, fun h v hv hvw => h (hvw ▸ hv)⟩
    rw [List.nodup_cons, List.forall_mem_cons, List.forall₂_cons_left_iff]
    rcases expandAfter_cons rule extra before ws w with ⟨e, hfails, heq⟩ | ⟨r, -, hw, hr, heq⟩
    · rw [heq]
      refine iff_of_false (by simp) ?_
      rintro ⟨-, ⟨hw, -⟩, r, rs', ⟨name, expr, hname, hexpr, -⟩, -, -⟩
      rcases (hfails e).2 rfl with hmem | ⟨-, hfail⟩ | ⟨-, hname', hfail⟩
      · exact hw hmem
      · cases hname.symm.trans hfail
      · cases hexpr.symm.trans hfail
    · have hmap : (rule.expandAfter (w :: before) extra ws).map (r :: ·) = .ok rs ↔
          ∃ rs', rule.expandAfter (w :: before) extra ws = .ok rs' ∧ r :: rs' = rs := by
        cases rule.expandAfter (w :: before) extra ws <;> simp [Except.map]
      simp only [heq, hmap, ih, hfresh, hr]
      constructor
      · rintro ⟨rs', ⟨hnodup, ⟨hws, hbefore⟩, hrs⟩, rfl⟩
        exact ⟨⟨hws, hnodup⟩, ⟨hw, hbefore⟩, r, rs', rfl, hrs, rfl⟩
      · rintro ⟨⟨hws, hnodup⟩, ⟨-, hbefore⟩, _, rs', rfl, hrs, rfl⟩
        exact ⟨rs', ⟨hnodup, ⟨hws, hbefore⟩, hrs⟩, rfl⟩

/-- The window at a place fails, with an error, behind those before it and some others. -/
def FailsIn (rule : Rule) (extra : List (String × String)) (before ws : List String) (i : ℕ)
    (e : ExpansionError) : Prop :=
  ∃ w, ws[i]? = some w ∧ rule.FailsAt extra (before ++ ws.take i) w e

lemma failsIn_zero :
    rule.FailsIn extra before (w :: ws) 0 e ↔ rule.FailsAt extra before w e := by
  simp [FailsIn]

lemma failsIn_succ {i : ℕ} :
    rule.FailsIn extra before (w :: ws) (i + 1) e ↔ rule.FailsIn extra (w :: before) ws i e := by
  simp only [FailsIn, List.getElem?_cons_succ, List.take_succ_cons]
  refine exists_congr fun v => and_congr_right fun _ => failsAt_congr ?_
  simp only [List.mem_append, List.mem_cons]
  exact or_left_comm.trans or_assoc.symm

/-- The induction is on the windows: each either fails itself or leaves the first place that does to
those behind it. -/
lemma expandAfter_error_iff :
    rule.expandAfter before extra ws = .error e ↔
      ∃ i, rule.FailsIn extra before ws i e ∧
        ∀ j < i, ∀ e', ¬ rule.FailsIn extra before ws j e' := by
  induction ws generalizing before with
  | nil => simp [expandAfter, FailsIn]
  | cons w ws ih =>
    rcases expandAfter_cons rule extra before ws w with ⟨e₀, hfails, heq⟩ | ⟨r, hnot, -, -, heq⟩
    · rw [heq, Except.error.injEq]
      constructor
      · rintro rfl
        exact ⟨0, failsIn_zero.2 ((hfails e₀).2 rfl), nofun⟩
      · rintro ⟨i, hi, hfirst⟩
        cases i with
        | zero => exact ((hfails e).1 (failsIn_zero.1 hi)).symm
        | succ i => exact absurd (failsIn_zero.2 ((hfails e₀).2 rfl)) (hfirst 0 i.succ_pos e₀)
    · have hmap : (rule.expandAfter (w :: before) extra ws).map (r :: ·) = .error e ↔
          rule.expandAfter (w :: before) extra ws = .error e := by
        cases rule.expandAfter (w :: before) extra ws <;> simp [Except.map]
      rw [heq, hmap, ih]
      constructor
      · rintro ⟨i, hi, hfirst⟩
        refine ⟨i + 1, failsIn_succ.2 hi, fun j hj e' => ?_⟩
        cases j with
        | zero => exact fun h => hnot e' (failsIn_zero.1 h)
        | succ j => exact fun h => hfirst j (Nat.lt_of_succ_lt_succ hj) e' (failsIn_succ.1 h)
      · rintro ⟨i, hi, hfirst⟩
        cases i with
        | zero => exact absurd (failsIn_zero.1 hi) (hnot e)
        | succ i =>
          exact ⟨i, failsIn_succ.1 hi, fun j hj e' h =>
            hfirst (j + 1) (Nat.succ_lt_succ hj) e' (failsIn_succ.2 h)⟩

/-! ### Lists of windows -/

lemma expandAfter_congr (h : ∀ w ∈ ws, w ∈ before ↔ w ∈ others) :
    rule.expandAfter before extra ws = rule.expandAfter others extra ws := by
  induction ws generalizing before others with
  | nil => rfl
  | cons w ws ih =>
    obtain ⟨hw, hws⟩ := List.forall_mem_cons.1 h
    have hrest : rule.expandAfter (w :: before) extra ws =
        rule.expandAfter (w :: others) extra ws :=
      ih fun v hv => by rw [List.mem_cons, List.mem_cons, hws v hv]
    simp only [expandAfter, List.contains_iff_mem, hw, hrest]

lemma expandAfter_append (vs : List String) :
    rule.expandAfter before extra (ws ++ vs) = do
      let rs ← rule.expandAfter before extra ws
      return rs ++ (← rule.expandAfter (ws ++ before) extra vs) := by
  induction ws generalizing before with
  | nil =>
    simp only [List.nil_append, expandAfter, bind, Except.bind, pure, Except.pure]
    cases rule.expandAfter before extra vs <;> rfl
  | cons w ws ih =>
    have hmem : rule.expandAfter (ws ++ w :: before) extra vs =
        rule.expandAfter (w :: ws ++ before) extra vs :=
      expandAfter_congr fun v _ => by simp [or_left_comm]
    rw [List.cons_append, expandAfter, expandAfter, ih, hmem]
    split
    · rfl
    · cases (rule.render (valuesAt extra w)).mapError ExpansionError.render with
      | error c => rfl
      | ok r =>
        cases rule.expandAfter (w :: before) extra ws with
        | error c => rfl
        | ok rs => cases rule.expandAfter (w :: ws ++ before) extra vs <;> rfl

lemma expand_append_of_disjoint {vs : List String} (h : ws.Disjoint vs) :
    rule.expand (ws ++ vs) extra = do
      let rs ← rule.expand ws extra
      return rs ++ (← rule.expand vs extra) := by
  have hvs : rule.expandAfter (ws ++ []) extra vs = rule.expandAfter [] extra vs :=
    expandAfter_congr fun v hv => by simpa using fun hmem => h hmem hv
  rw [expand, expandAfter_append, hvs]
  rfl

/-- A window fails to have its rule if the name or the expression does not render. -/
lemma not_becomesAt_iff :
    (¬ ∃ r, rule.BecomesAt extra w r) ↔
      (∃ e, renderExpression rule.name (valuesAt extra w) = .error e) ∨
        ∃ e, renderExpression rule.expr (valuesAt extra w) = .error e := by
  unfold BecomesAt
  cases renderExpression rule.name (valuesAt extra w) <;>
    cases renderExpression rule.expr (valuesAt extra w) <;> simp

/-- **Expansion is a map over the windows, with the error of the first one that fails.** -/
theorem expand_windowByWindow (rule : Rule) (windows : List String)
    (extra : List (String × String)) :
    -- the last extra value of a name counts, and the window more than any of them
    (∀ w n, (valuesAt extra w).get? n =
      if n = windowName then some w else extra.reverse.lookup n) ∧
    -- it fails if a window repeats or a text does not render for one of them
    ((∃ e, rule.expand windows extra = .error e) ↔
      ¬ windows.Nodup ∨ ∃ w ∈ windows,
        (∃ e, renderExpression rule.name (valuesAt extra w) = .error e) ∨
          ∃ e, renderExpression rule.expr (valuesAt extra w) = .error e) ∧
    -- the error is that of the first place that fails
    (∀ e, rule.expand windows extra = .error e ↔
      ∃ i, rule.FailsIn extra [] windows i e ∧
        ∀ j < i, ∀ e', ¬ rule.FailsIn extra [] windows j e') ∧
    -- otherwise each window has its rule
    (∀ rs, rule.expand windows extra = .ok rs ↔
      windows.Nodup ∧ List.Forall₂ (rule.BecomesAt extra) windows rs) ∧
    -- windows that have none in common are expanded one after the other
    ∀ more : List String, windows.Disjoint more →
      rule.expand (windows ++ more) extra = do
        let rs ← rule.expand windows extra
        return rs ++ (← rule.expand more extra) := by
  have hok (rs : List Rule) : rule.expand windows extra = .ok rs ↔
      windows.Nodup ∧ List.Forall₂ (rule.BecomesAt extra) windows rs := by
    simp [expand, expandAfter_ok_iff]
  have hfails : (∃ e, rule.expand windows extra = .error e) ↔
      ¬ ∃ rs, rule.expand windows extra = .ok rs := by
    cases rule.expand windows extra <;> simp
  refine ⟨get?_valuesAt extra, ?_, fun e => expandAfter_error_iff, hok,
    fun more h => expand_append_of_disjoint h⟩
  simp only [hfails, hok, exists_and_left, exists_forall₂_iff, not_and_or, not_forall,
    exists_prop, not_becomesAt_iff]

end Rule

end BurnRate
