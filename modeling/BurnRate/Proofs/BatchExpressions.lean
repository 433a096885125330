import BurnRate.Proofs.CopiedTexts
import BurnRate.Proofs.Results
import BurnRate.Slo.Fault

/-!
What the rules of a batch objective say of its expressions.

The checks read the expressions as texts with tags, as for the other kinds, but the rules hold the
texts as they are. So the rules say what was checked only where a text renders to itself.
-/

namespace BurnRate

lemma renderExpression_eq_ok_iff {source t : String} {values : Labels} :
    renderExpression source values = .ok t ↔ Expression.render source values = .ok t := by
  rw [renderExpression]
  cases Expression.render source values <;> simp [Except.mapError]

/-- If the text can be rendered without values, nothing changes. -/
def RendersToItself (source : String) : Prop :=
  ∀ t, renderExpression source ∅ = .ok t → t = source

lemma rendersToItself_iff {source : String} (h : Expression.IsCopied source) :
    RendersToItself source ↔ ¬ Expression.HasTag source := by
  rw [← Expression.render_eq_self_iff h ∅]
  simp only [RendersToItself, renderExpression_eq_ok_iff, Expression.render_of_isCopied h,
    Except.ok.injEq, forall_eq']

namespace BatchSlo

/-- The expressions, without the white space around them. -/
def expressions (s : BatchSlo) : List String := [Text.trim s.volume, Text.trim s.throughput]

/-- The series of the objective hold what its expressions render to. -/
structure EmitsRendered (s : BatchSlo) (rs : List Rule) : Prop where
  volume : ∀ t, renderExpression (Text.trim s.volume) ∅ = .ok t →
    ∀ r ∈ rs, r.name = Series.batchVolume → r.expr = t
  target : ∀ t, renderExpression (Text.trim s.volume) ∅ = .ok t →
    ∀ r ∈ rs, r.name = Series.batchThroughputTarget →
      r.expr = operand t ++ " / " ++ toString s.deadline.seconds
  throughput : ∀ t, renderExpression (Text.trim s.throughput) ∅ = .ok t →
    ∀ r ∈ rs, r.name = Series.batchThroughput → r.expr = t

variable {s : BatchSlo}

lemma map_name_rules (s : BatchSlo) : s.rules.map Rule.name =
    [Series.definition, Series.errorBudget, Series.labelsInfo, Series.batchVolume,
      Series.batchThroughputTarget, Series.batchThroughput] := rfl

lemma mem_rules_volume (s : BatchSlo) :
    .recording Series.batchVolume (s.join ∅) (Text.trim s.volume) ∈ s.rules := by
  simp [rules]

lemma mem_rules_target (s : BatchSlo) :
    .recording Series.batchThroughputTarget (s.join ∅) s.targetText ∈ s.rules := by
  simp [rules]

lemma mem_rules_throughput (s : BatchSlo) :
    .recording Series.batchThroughput (s.join ∅) (Text.trim s.throughput) ∈ s.rules := by
  simp [rules]

/-- Names tell the rules apart. -/
lemma expr_of_name {r : Rule} {series expr : String} {labels : Labels}
    (h : .recording series labels expr ∈ s.rules) (hr : r ∈ s.rules) (hname : r.name = series) :
    r.expr = expr := by
  have hnodup : (s.rules.map Rule.name).Nodup := by
    rw [map_name_rules]
    decide
  rw [List.inj_on_of_nodup_map hnodup hr h hname]
  rfl

lemma emitsRendered_iff :
    s.EmitsRendered s.rules ↔ ∀ source ∈ s.expressions, RendersToItself source := by
  constructor
  · rintro h source hsource t ht
    rcases List.mem_pair.1 hsource with rfl | rfl
    · exact (h.volume t ht _ s.mem_rules_volume rfl).symm
    · exact (h.throughput t ht _ s.mem_rules_throughput rfl).symm
  · intro h
    have hvolume := h _ List.mem_cons_self
    have hthroughput := h _ (List.mem_cons_of_mem _ List.mem_cons_self)
    constructor
    · intro t ht r hr hname
      rw [hvolume t ht, expr_of_name s.mem_rules_volume hr hname]
    · intro t ht r hr hname
      rw [hvolume t ht, expr_of_name s.mem_rules_target hr hname, targetText]
    · intro t ht r hr hname
      rw [hthroughput t ht, expr_of_name s.mem_rules_throughput hr hname]

end BatchSlo

namespace Slo

/-- **What the rules of a batch objective say of its expressions.** They hold what was checked
exactly if both expressions render to themselves; where all is copied, that is where no tag is. -/
theorem batch_rules_emitRendered_iff (s : BatchSlo) :
    ∃ rs, (Slo.batch s).rules = .ok rs ∧
      -- each series stands in one rule
      (rs.map Rule.name).Nodup ∧
      (∀ series ∈ [Series.batchVolume, Series.batchThroughputTarget, Series.batchThroughput],
        series ∈ rs.map Rule.name) ∧
      -- the rules hold the rendered texts if rendering changes none
      (s.EmitsRendered rs ↔ ∀ source ∈ s.expressions, RendersToItself source) ∧
      -- a text without tags can be rendered and stays the same
      (∀ source ∈ s.expressions, ¬ Expression.HasTag source →
        renderExpression source ∅ = .ok source) ∧
      -- comments and raw blocks are lost
      ∀ source ∈ s.expressions, Expression.IsCopied source →
        (∃ t, renderExpression source ∅ = .ok t) ∧
        (RendersToItself source ↔ ¬ Expression.HasTag source) := by
  refine ⟨s.rules, rfl, ?_, ?_, BatchSlo.emitsRendered_iff, fun source _ htag => ?_,
    fun source _ hcopied => ⟨?_, rendersToItself_iff hcopied⟩⟩
  · rw [BatchSlo.map_name_rules]
    decide
  · rw [BatchSlo.map_name_rules]
    decide
  · have hcopied := Expression.isCopied_of_not_hasTag htag
    exact renderExpression_eq_ok_iff.2 ((Expression.render_eq_self_iff hcopied ∅).2 htag)
  · exact ⟨_, renderExpression_eq_ok_iff.2 (Expression.render_of_isCopied hcopied ∅)⟩

/-- A volume that says in a comment what it counts. -/
def annotatedVolume : String := "\x7b# rows #\x7d10"

def annotatedBatch : BatchSlo where
  name := "api"
  budget := 0.5
  deadline := .ofParts 7200 0
  volume := annotatedVolume
  throughput := "rate(rows[5m])"

/-- The comment passes the checks and ends up in the rules. -/
theorem batch_rules_annotatedVolume :
    (Slo.batch annotatedBatch).validate = .ok () ∧
      renderExpression (Text.trim annotatedBatch.volume) ∅ = .ok "10" ∧
      ∃ rs, (Slo.batch annotatedBatch).rules = .ok rs ∧
        .recording Series.batchVolume (annotatedBatch.join ∅) annotatedVolume ∈ rs ∧
        .recording Series.batchThroughputTarget (annotatedBatch.join ∅)
          ("(" ++ annotatedVolume ++ ") / 7200") ∈ rs ∧
        ¬ annotatedBatch.EmitsRendered rs := by
  have htrim : Text.trim annotatedVolume = annotatedVolume := by decide +kernel
  have hrender : renderExpression (Text.trim annotatedVolume) ∅ = .ok "10" := by
    have hcopied : Expression.IsCopied annotatedVolume := by decide +kernel
    have hwritten : String.ofList (Expression.written (Expression.Lexer.tokens annotatedVolume)) =
        "10" := by
      decide +kernel
    rw [htrim, renderExpression_eq_ok_iff, Expression.render_of_isCopied hcopied, hwritten]
  have hvalid : (Slo.batch annotatedBatch).validate = .ok () :=
    eq_ok_of_toOption (by decide +kernel)
  refine ⟨hvalid, hrender, annotatedBatch.rules, rfl, ?_, ?_, fun h => ?_⟩
  · have hmem := annotatedBatch.mem_rules_volume
    rwa [show Text.trim annotatedBatch.volume = annotatedVolume from htrim] at hmem
  · have htarget : annotatedBatch.targetText = "(" ++ annotatedVolume ++ ") / 7200" := by
      decide +kernel
    rw [← htarget]
    exact annotatedBatch.mem_rules_target
  · have hself := BatchSlo.emitsRendered_iff.1 h _ List.mem_cons_self "10" hrender
    exact absurd hself (by decide +kernel)

end Slo

end BurnRate
