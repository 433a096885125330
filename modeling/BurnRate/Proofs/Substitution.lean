import BurnRate.Expression.Flaw
import BurnRate.Proofs.BatchExpressions
import BurnRate.Proofs.DirectTexts
import BurnRate.Proofs.PlainTexts
import BurnRate.Proofs.SortedNames
import BurnRate.Proofs.WindowExpansion
import BurnRate.Proofs.WindowRules

/-!
Plain texts are rendered by substitution, and the checks decide whether that succeeds.

The names that count as free in a plain text are its placeholders. Each writes its value as it is,
so different windows show in what a plain text with the window is expanded to.
-/

namespace BurnRate.Expression

/-! ### What a plain text writes -/

lemma run_execAll_copied (perform : Task → Eval Unit) (s : String) (ss : List Statement)
    (m : Machine) :
    (execAll perform (copied s ++ ss)).run m = (execAll perform ss).run (m.wrote s) := by
  unfold copied
  split
  · next hs => simp [hs, Machine.wrote]
  · rw [List.singleton_append, run_execAll_copy]

/-- Without a value, a name that no function has stands for nothing. -/
lemma Machine.lookup?_start_none {values : Labels} {n : String} (h : values.get? n = none)
    (hn : n ∉ builtinNames) (ss : List Statement) : (Machine.start values ss).lookup? n = none := by
  simp only [Labels.get?] at h
  simpa [lookup?, start, inFrame?, lookup_map_ofText, h, builtinNames] using hn

/-- A machine that has written some text since the start. -/
def Machine.HasOnlyWritten (values : Labels) (m : Machine) : Prop :=
  ∃ ss t, m = (Machine.start values ss).wrote t

lemma Machine.HasOnlyWritten.wrote {values : Labels} {m : Machine} (h : m.HasOnlyWritten values)
    (s : String) : (m.wrote s).HasOnlyWritten values := by
  obtain ⟨ss, t, rfl⟩ := h
  exact ⟨ss, t ++ s, by simp [Machine.wrote, String.append_assoc]⟩

section

variable (perform : Task → Eval Unit) {values : Labels} {m : Machine} {n : String}

lemma run_execAll_emit_some (hm : m.HasOnlyWritten values) {t : String}
    (ht : values.get? n = some t) (ss : List Statement) :
    (execAll perform (.emit (.var n) :: ss)).run m = (execAll perform ss).run (m.wrote t) := by
  obtain ⟨bs, o, rfl⟩ := hm
  have hlookup : ((Machine.start values bs).wrote o).lookup? n = some (.ofText t) :=
    Machine.lookup?_start ht bs
  rw [run_execAll_emit perform (yields_var perform hlookup) rfl]
  rfl

/-- What has no value cannot be written. -/
lemma run_execAll_emit_none (hm : m.HasOnlyWritten values) (ht : values.get? n = none)
    (hn : n ∉ builtinNames) (ss : List Statement) :
    (execAll perform (.emit (.var n) :: ss)).run m = .error .undefinedValue := by
  obtain ⟨bs, o, rfl⟩ := hm
  have hlookup : ((Machine.start values bs).wrote o).lookup? n = none :=
    Machine.lookup?_start_none ht hn bs
  have hvalue : ((Expr.var n).eval perform).Yields ((Machine.start values bs).wrote o) .nothing := by
    rw [Expr.eval]
    exact (Eval.Yields.lookup? hlookup).bind (.pure _)
  rw [execAll, Statement.exec, StateT.run_bind, hvalue.run_bind]
  rfl

/-- A plain text is written piece by piece, up to the first placeholder without a value. -/
lemma run_execAll_plain (slots : List Slot) (last : String) (hm : m.HasOnlyWritten values) :
    (execAll perform (plainStatements slots last)).run m =
      if ∀ s ∈ slots, (values.get? s.name).isSome then
        .ok ((), m.wrote (slots.foldr
          (fun s rest => s.text ++ (values.get? s.name).getD "" ++ rest) last))
      else .error .undefinedValue := by
  induction slots generalizing m with
  | nil =>
    have hrun := run_execAll_copied perform last [] m
    rw [List.append_nil, execAll] at hrun
    simp only [plainStatements, List.flatMap_nil, List.nil_append, List.not_mem_nil, false_implies,
      implies_true, if_true, List.foldr_nil]
    exact hrun
  | cons s slots ih =>
    have hsplit : plainStatements (s :: slots) last =
        copied s.text ++ .emit (.var s.name) :: plainStatements slots last := by
      simp [plainStatements]
    rw [hsplit, run_execAll_copied]
    cases ht : values.get? s.name with
    | none =>
      have hn : s.name ∉ builtinNames := fun h => s.free (List.mem_append_right _ h)
      rw [run_execAll_emit_none perform (hm.wrote _) ht hn, if_neg (by simp [ht])]
    | some t =>
      rw [run_execAll_emit_some perform (hm.wrote _) ht, ih ((hm.wrote _).wrote _)]
      simp only [List.forall_mem_cons, ht, Option.isSome_some, true_and, List.foldr_cons,
        Option.getD_some, Machine.wrote, String.append_assoc]

end

/-- A plain text is rendered by substitution. -/
lemma render_plain (p : PlainText) (values : Labels) :
    render p.source values =
      if ∀ n ∈ p.names, (values.get? n).isSome then
        .ok (p.filled fun n => (values.get? n).getD "")
      else .error .undefinedValue := by
  have hm : (Machine.start values (plainStatements p.slots p.last)).HasOnlyWritten values :=
    ⟨plainStatements p.slots p.last, "", by simp [Machine.wrote]⟩
  simp only [render, parse_plain, renderStatements, run_execAll_plain _ _ _ hm, PlainText.names,
    List.forall_mem_map]
  split
  · simp [bind, Except.bind, pure, Except.pure, Machine.wrote, Machine.start, PlainText.filled]
  · rfl

/-! ### What the checks find -/

lemma useStatements_copied (u : Usage) (s : String) (ss : List Statement) :
    useStatements u (copied s ++ ss) = useStatements u ss := by
  unfold copied
  split <;> rfl

lemma useStatements_plain (u : Usage) (slots : List Slot) (last : String) :
    useStatements u (plainStatements slots last) = (slots.map Slot.name).foldl Usage.read u := by
  induction slots generalizing u with
  | nil =>
    have hlast := useStatements_copied u last []
    simpa [plainStatements, useStatements] using hlast
  | cons s slots ih =>
    have hsplit : plainStatements (s :: slots) last =
        copied s.text ++ .emit (.var s.name) :: plainStatements slots last := by
      simp [plainStatements]
    rw [hsplit, useStatements_copied, useStatements, ih]
    rfl

/-- Names that are not assigned are free once they are read, each of them once. -/
lemma Usage.foldl_read {ns : List String} {u : Usage} (hns : ∀ n ∈ ns, ¬ u.Assigns n)
    (hfree : u.free.Nodup) :
    (ns.foldl Usage.read u).free.Nodup ∧
      ∀ n, n ∈ (ns.foldl Usage.read u).free ↔ n ∈ u.free ∨ n ∈ ns := by
  induction ns generalizing u with
  | nil => simpa using hfree
  | cons n ns ih =>
    obtain ⟨hn, hns⟩ := List.forall_mem_cons.1 hns
    have hassigned : (u.scopes.any fun scope => scope.contains n) = false := by
      rw [← Bool.not_eq_true, List.any_eq_true]
      rintro ⟨scope, hscope, hmem⟩
      exact hn ⟨scope, hscope, by simpa using hmem⟩
    have hread : (u.read n).free.Nodup ∧ ∀ k, k ∈ (u.read n).free ↔ k ∈ u.free ∨ k = n := by
      unfold read
      simp only [hassigned, Bool.false_or, List.contains_iff_mem]
      split
      · next hmem => exact ⟨hfree, fun k => (or_iff_left_of_imp fun hk => hk ▸ hmem).symm⟩
      · next hmem => exact ⟨List.nodup_cons.2 ⟨hmem, hfree⟩, fun k => by simp [or_comm]⟩
    obtain ⟨hnodup, hmem⟩ := ih (u := u.read n)
      (fun k hk h => hns k hk ((u.extends_read n).assigns_iff.1 h)) hread.1
    refine ⟨hnodup, fun k => ?_⟩
    rw [List.foldl_cons, hmem, hread.2, List.mem_cons, or_assoc]

namespace PlainText

variable (p : PlainText)

lemma exists_placeholders : ∃ ns : List String, placeholders p.source = .ok ns ∧ ns.Nodup ∧
    ∀ n, n ∈ ns ↔ n ∈ p.names := by
  have hself : ∀ n ∈ p.names, ¬ Usage.Assigns { scopes := [["self"]] } n := by
    rintro n hn ⟨scope, hscope, hmem⟩
    obtain ⟨s, -, rfl⟩ := List.mem_map.1 hn
    rw [List.mem_singleton] at hscope
    subst hscope
    have hword : s.name ∈ ownWords := by simp [List.mem_singleton.1 hmem, ownWords]
    exact s.free (List.mem_append_left _ hword)
  obtain ⟨hnodup, hmem⟩ := Usage.foldl_read hself List.nodup_nil
  refine ⟨_, ?_, hnodup, fun n => ?_⟩
  · rw [placeholders, parse_plain]
    simp only [freeNames, useStatements_plain]
    rfl
  · simpa using hmem n

/-- The names that are not allowed are reported in order. -/
lemma checkAllowed_eq (allowed : List String) :
    ∃ ns : List String, ns.Pairwise (· < ·) ∧ (∀ n, n ∈ ns ↔ n ∈ p.names ∧ n ∉ allowed) ∧
      checkAllowed p.source allowed =
        if ∀ n ∈ p.names, n ∈ allowed then .ok () else .error (.unknown ns) := by
  obtain ⟨names, hnames, hnodup, hmem⟩ := p.exists_placeholders
  let unknown := names.filter fun n => !allowed.contains n
  have hunknown (n : String) : n ∈ unknown ↔ n ∈ p.names ∧ n ∉ allowed := by
    simp [unknown, hmem]
  have hempty : unknown.isEmpty = true ↔ ∀ n ∈ p.names, n ∈ allowed := by
    rw [List.isEmpty_iff, List.eq_nil_iff_forall_not_mem]
    simp [hunknown]
  refine ⟨unknown.mergeSort (· ≤ ·), increasing_mergeSort (hnodup.filter _), fun n => ?_, ?_⟩
  · rw [List.mem_mergeSort, hunknown]
  · rw [checkAllowed, hnames]
    exact if_congr hempty rfl rfl

/-- The names that are missing are reported as they were given. -/
lemma checkRequired_eq (required : List String) :
    checkRequired p.source required =
      if ∀ n ∈ required, n ∈ p.names then .ok ()
      else .error (.missing (required.filter (· ∉ p.names))) := by
  obtain ⟨names, hnames, -, hmem⟩ := p.exists_placeholders
  have hmissing : (required.filter fun n => !names.contains n) =
      required.filter (· ∉ p.names) := by
    refine List.filter_congr fun n _ => ?_
    simp [hmem]
  have hempty : (required.filter (· ∉ p.names)).isEmpty = true ↔ ∀ n ∈ required, n ∈ p.names := by
    simp [List.isEmpty_iff, List.filter_eq_nil_iff]
  rw [checkRequired, hnames]
  simp only [bind, Except.bind, hmissing]
  exact if_congr hempty rfl rfl

/-! ### The value of one placeholder -/

/-- The text around one placeholder, the values of the others in it. -/
def around (x : String) (value : String → String) : List (Option String) :=
  p.slots.flatMap (fun s => [some s.text, if s.name = x then none else some (value s.name)]) ++
    [some p.last]

lemma toList_filled (x : String) (value : String → String) :
    (p.filled value).toList = fill (value x) (p.around x value) := by
  unfold filled around
  induction p.slots with
  | nil => simp
  | cons s slots ih =>
    rw [List.foldr_cons, String.toList_append, ih]
    by_cases hs : s.name = x <;> simp [hs]

lemma around_congr {x : String} {value value' : String → String}
    (h : ∀ n, n ≠ x → value n = value' n) : p.around x value = p.around x value' := by
  unfold around
  congr 2
  funext s
  by_cases hs : s.name = x
  · simp [hs]
  · simp [hs, h s.name hs]

/-- The values of the placeholders alone decide. -/
lemma filled_congr {value value' : String → String} (h : ∀ n ∈ p.names, value n = value' n) :
    p.filled value = p.filled value' := by
  refine List.foldr_ext _ _ _ fun s hs rest => ?_
  rw [h s.name (List.mem_map_of_mem hs)]

/-- Texts that differ in the value of one placeholder are different. -/
lemma filled_injective {x : String} (hx : x ∈ p.names) {value value' : String → String}
    (hothers : ∀ n, n ≠ x → value n = value' n) (h : p.filled value = p.filled value') :
    value x = value' x := by
  have hgap : none ∈ p.around x value := by
    obtain ⟨s, hs, hname⟩ := List.mem_map.1 hx
    exact List.mem_append_left _ (List.mem_flatMap.2 ⟨s, hs, by simp [hname]⟩)
  refine fill_injective hgap ?_
  rw [← toList_filled, h, toList_filled p x, p.around_congr hothers]

end PlainText

end Expression

open Expression

/-! ### Windows -/

/-- A piece of text and the window behind it. -/
def Expression.Slot.window (text : String) (untagged : ¬ HasTag text)
    (apart : text.toList.getLast? ≠ some '\x7b') : Slot where
  text := text
  name := windowName
  untagged := untagged
  apart := apart
  ident := by decide +kernel
  free := by decide +kernel

/-- What a plain text with the window is rendered to tells the window. -/
lemma window_eq_of_renderExpression (p : PlainText) (hp : windowName ∈ p.names)
    {extra : List (String × String)} {v w t : String}
    (hv : renderExpression p.source (valuesAt extra v) = .ok t)
    (hw : renderExpression p.source (valuesAt extra w) = .ok t) : v = w := by
  have hfilled {w : String} (h : renderExpression p.source (valuesAt extra w) = .ok t) :
      p.filled (fun n => ((valuesAt extra w).get? n).getD "") = t := by
    rw [renderExpression_eq_ok_iff, render_plain] at h
    split at h
    · exact Except.ok.inj h
    · cases h
  have h := p.filled_injective hp (fun n hn => ?_) ((hfilled hv).trans (hfilled hw).symm)
  · simpa [get?_valuesAt] using h
  · simp [get?_valuesAt, hn]

/-- Rules that hold what a plain text is rendered to for different windows differ in it. -/
lemma nodup_map_of_rendered (p : PlainText) (hp : windowName ∈ p.names)
    {extra : List (String × String)} {f : Rule → String} {ws : List String} {rs : List Rule}
    (h : List.Forall₂ (fun w r => renderExpression p.source (valuesAt extra w) = .ok (f r)) ws rs)
    (hws : ws.Nodup) : (rs.map f).Nodup := by
  have htexts : ws.map (fun w => renderExpression p.source (valuesAt extra w)) =
      (rs.map f).map .ok := by
    rw [List.map_map, ← List.forall₂_eq_eq_eq, List.forall₂_map_left_iff,
      List.forall₂_map_right_iff]
    exact h
  refine List.Nodup.of_map _ (htexts ▸ hws.map_on fun v hv w _ hvw => ?_)
  have hrendered := List.mem_map_of_mem (f := fun w => renderExpression p.source (valuesAt extra w)) hv
  rw [htexts] at hrendered
  obtain ⟨t, -, ht⟩ := List.mem_map.1 hrendered
  exact window_eq_of_renderExpression p hp ht.symm (hvw.symm.trans ht.symm)

/-- A text whose only placeholder is the window becomes what the window makes of it. -/
lemma renderExpression_window (p : PlainText) (hp : p.names ⊆ [windowName])
    (extra : List (String × String)) (w : String) :
    renderExpression p.source (valuesAt extra w) = .ok (p.filled fun _ => w) := by
  have hvalue : ∀ n ∈ p.names, (valuesAt extra w).get? n = some w := by
    intro n hn
    rw [List.mem_singleton.1 (hp hn), get?_valuesAt, if_pos rfl]
  have hsome : ∀ n ∈ p.names, ((valuesAt extra w).get? n).isSome := by
    intro n hn
    rw [hvalue n hn]
    rfl
  have hfilled : (p.filled fun n => ((valuesAt extra w).get? n).getD "") = p.filled fun _ => w :=
    p.filled_congr fun n hn => by rw [hvalue n hn, Option.getD_some]
  rw [renderExpression_eq_ok_iff, render_plain, if_pos hsome, hfilled]

/-- A rule with such texts has one rule for each of some windows, none of which repeats. -/
lemma Rule.expand_plain {rule : Rule} (name expr : PlainText) (hname : rule.name = name.source)
    (hexpr : rule.expr = expr.source) (hn : name.names ⊆ [windowName])
    (he : expr.names ⊆ [windowName]) {windows : List String} (hws : windows.Nodup)
    (extra : List (String × String)) :
    rule.expand windows extra =
      .ok (windows.map fun w => rule.withTexts (name.filled fun _ => w) (expr.filled fun _ => w)) := by
  refine expandAfter_ok_iff.2 ⟨hws, by simp, ?_⟩
  rw [List.forall₂_map_right_iff, List.forall₂_same]
  intro w _
  refine ⟨_, _, ?_, ?_, rfl⟩
  · rw [hname, renderExpression_window name hn]
  · rw [hexpr, renderExpression_window expr he]

/-- **Plain texts are rendered by substitution, and the checks decide them exactly.** -/
theorem plainTexts_substituted (p : PlainText) :
    -- all placeholders are replaced by their values, or one has none
    (∀ values : Labels, renderExpression p.source values =
      if ∀ n ∈ p.names, (values.get? n).isSome then
        .ok (p.filled fun n => (values.get? n).getD "")
      else .error ⟨p.source, Cause.undefinedValue.text⟩) ∧
    -- the placeholders that are not allowed are reported once each, in order
    (∀ allowed : List String, ∃ ns : List String, ns.Pairwise (· < ·) ∧
      (∀ n, n ∈ ns ↔ n ∈ p.names ∧ n ∉ allowed) ∧
      checkAllowed p.source allowed =
        if ∀ n ∈ p.names, n ∈ allowed then .ok () else .error (.unknown ns)) ∧
    -- the required ones that do not occur are reported as they were given
    (∀ required : List String, checkRequired p.source required =
      if ∀ n ∈ required, n ∈ p.names then .ok ()
      else .error (.missing (required.filter (· ∉ p.names)))) ∧
    -- where the window occurs, the rules of different windows differ
    (windowName ∈ p.names → ∀ (rule : Rule) (windows : List String)
      (extra : List (String × String)) (rs : List Rule), rule.expand windows extra = .ok rs →
        (rule.expr = p.source → (rs.map Rule.expr).Nodup) ∧
        (rule.name = p.source → (rs.map Rule.name).Nodup)) := by
  refine ⟨fun values => ?_, p.checkAllowed_eq, p.checkRequired_eq,
    fun hp rule windows extra rs hrs => ?_⟩
  · rw [renderExpression, render_plain]
    split <;> rfl
  · obtain ⟨hnodup, -, hbecomes⟩ := Rule.expandAfter_ok_iff.1 hrs
    constructor
    · intro hexpr
      have hrendered : List.Forall₂ (fun w (r : Rule) =>
          renderExpression p.source (valuesAt extra w) = .ok r.expr) windows rs := by
        refine hbecomes.imp fun w r hr => ?_
        obtain ⟨name, expr, -, hrun, rfl⟩ := hr
        rw [← hexpr, hrun]
        cases rule <;> rfl
      exact nodup_map_of_rendered p hp hrendered hnodup
    · intro hname
      have hrendered : List.Forall₂ (fun w (r : Rule) =>
          renderExpression p.source (valuesAt extra w) = .ok r.name) windows rs := by
        refine hbecomes.imp fun w r hr => ?_
        obtain ⟨name, expr, hrun, -, rfl⟩ := hr
        rw [← hname, hrun]
        cases rule <;> rfl
      exact nodup_map_of_rendered p hp hrendered hnodup

/-- A rate over the window. -/
def requestRate : PlainText where
  slots := [.window "rate(e[" (by decide +kernel) (by decide +kernel)]
  last := "]) > 0"
  untagged := by decide +kernel

/-- The name of a series over the window. -/
def rateName : PlainText where
  slots := [.window "job:rate" (by decide +kernel) (by decide +kernel)]
  last := ":sum"
  untagged := by decide +kernel

theorem requestRate_substituted :
    requestRate.source = "rate(e[\x7b\x7b window \x7d\x7d]) > 0" ∧
      renderExpression requestRate.source (valuesAt [] "5m") = .ok "rate(e[5m]) > 0" ∧
      checkAllowed requestRate.source [bucketName] = .error (.unknown [windowName]) ∧
      checkRequired requestRate.source [windowName, bucketName] = .error (.missing [bucketName]) ∧
      ∃ rs, (Rule.recording rateName.source ∅ requestRate.source).expand alertWindows [] = .ok rs ∧
        (rs.map Rule.expr).Nodup := by
  have hnames : requestRate.names = [windowName] := rfl
  have hne : windowName ≠ bucketName := by decide
  obtain ⟨hrender, hallowed, hrequired, hwindows⟩ := plainTexts_substituted requestRate
  refine ⟨by decide +kernel, ?_, ?_, ?_, ?_⟩
  · have hvalue : (valuesAt [] "5m").get? windowName = some "5m" := get?_valuesAt_window [] "5m"
    rw [hrender, hnames, if_pos (by simp [hvalue])]
    simp [PlainText.filled, requestRate, Slot.window, hvalue]
  · obtain ⟨ns, hsorted, hmem, hcheck⟩ := hallowed [bucketName]
    have hns : ns = [windowName] := by
      refine eq_of_increasing hsorted (List.pairwise_singleton _ _) fun n => ?_
      simp only [hmem, hnames, List.mem_singleton]
      exact and_iff_left_of_imp fun hn => hn ▸ hne
    rw [hcheck, hnames, hns, if_neg (by simpa using hne)]
  · have hmissing : [windowName, bucketName].filter (· ∉ requestRate.names) = [bucketName] := by
      simp [hnames, hne.symm]
    rw [hrequired, hmissing, if_neg (by simp [hnames, hne.symm])]
  · let rule : Rule := .recording rateName.source ∅ requestRate.source
    have hdistinct : alertWindows.Nodup := by decide
    have hexpand := rule.expand_plain rateName requestRate rfl rfl (List.Subset.refl _)
      (List.Subset.refl _) hdistinct []
    exact ⟨_, hexpand, (hwindows List.mem_cons_self _ _ _ _ hexpand).1 rfl⟩

end BurnRate
