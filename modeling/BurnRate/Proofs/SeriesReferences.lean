import BurnRate.Proofs.JoinKey
import BurnRate.Proofs.OwnRules

/-!
The series that the rules of a group refer to.

A series stands in an expression as a whole word. The rules of an objective, the ratio rules of its
kind and the alerts are written apart from each other and agree by the names of series only: what a
ratio rule refers to is recorded for the objective or by an earlier ratio rule of the kind, and the
kind ends in the error ratios that the alerts refer to.
-/

namespace BurnRate

/-! ### Series in expressions -/

/-- Characters in the names of series. -/
def isSeriesChar (c : Char) : Bool := c.isAlphanum || c == '_' || c == ':'

/-- The text has only such characters. -/
def isSeriesName (n : String) : Bool := n.toList.all isSeriesChar

/-- The name stands in the expression as a word of its own. -/
def Mentions (expr name : String) : Prop :=
  ∃ before after, expr.toList = before ++ name.toList ++ after ∧
    (∀ c ∈ name.toList, isSeriesChar c = true) ∧
    (∀ c ∈ before.getLast?, isSeriesChar c = false) ∧
    ∀ c ∈ after.head?, isSeriesChar c = false

/-- What the names of recorded series start with. -/
def seriesPrefix : List Char := ['j', 'o', 'b', ':', 's', 'l', 'o', '_']

/-- A name as recorded series have it. -/
def IsRecordName (name : String) : Prop := seriesPrefix <+: name.toList

/-- The words of a text, between the characters that stand in no name of a series. -/
def words (cs : List Char) : List (List Char) := cs.splitOnP (!isSeriesChar ·)

lemma words_append_cons {c : Char} (hc : isSeriesChar c = false) (xs ys : List Char) :
    words (xs ++ c :: ys) = words xs ++ words ys :=
  List.splitOnP_append_cons xs ys (by rw [hc, Bool.not_false])

lemma words_of_all {cs : List Char} (h : ∀ c ∈ cs, isSeriesChar c = true) : words cs = [cs] :=
  List.splitOnP_eq_singleton fun c hc => by rw [h c hc, Bool.not_true]

lemma words_cons {c : Char} (hc : isSeriesChar c = false) (ys : List Char) :
    words (c :: ys) = [] :: words ys :=
  words_append_cons hc [] ys

lemma mem_words {before word after : List Char} (hword : ∀ c ∈ word, isSeriesChar c = true)
    (hbefore : ∀ c ∈ before.getLast?, isSeriesChar c = false)
    (hafter : ∀ c ∈ after.head?, isSeriesChar c = false) :
    word ∈ words (before ++ word ++ after) := by
  have hrest : word ∈ words (word ++ after) := by
    cases after with
    | nil => simp [words_of_all hword]
    | cons c after => simp [words_append_cons (hafter c rfl), words_of_all hword]
  rw [List.append_assoc]
  rcases before.eq_nil_or_concat with rfl | ⟨before, c, rfl⟩
  · exact hrest
  · rw [List.concat_append, words_append_cons (hbefore c (by simp))]
    exact List.mem_append_right _ hrest

/-! ### What a text refers to -/

/-- The text refers to no recorded series but those listed. -/
def RefersTo (names : List String) (cs : List Char) : Prop :=
  ∀ word ∈ words cs, seriesPrefix <+: word → String.ofList word ∈ names

/-- The text refers to no recorded series. -/
def isInert (t : String) : Bool := (words t.toList).all (!seriesPrefix.isPrefixOf ·)

/-- No word goes on behind the text. -/
def endsApart (cs : List Char) : Bool := cs.getLast?.all (!isSeriesChar ·)

def startsApart (cs : List Char) : Bool := cs.head?.all (!isSeriesChar ·)

variable {names : List String} {xs ys : List Char} {t n : String}

lemma RefersTo.mem {expr name : String} (h : RefersTo names expr.toList)
    (hname : IsRecordName name) (hmention : Mentions expr name) : name ∈ names := by
  obtain ⟨before, after, hexpr, hword, hbefore, hafter⟩ := hmention
  have hmem := mem_words hword hbefore hafter
  rw [← hexpr] at hmem
  have hnames := h _ hmem hname
  rwa [String.ofList_toList] at hnames

lemma RefersTo.mono {more : List String} (h : RefersTo names xs) (hsub : names ⊆ more) :
    RefersTo more xs :=
  fun word hword hprefix => hsub (h word hword hprefix)

lemma refersTo_of_isInert (h : isInert t = true) : RefersTo names t.toList := by
  intro word hword hprefix
  have hno := List.all_eq_true.1 h word hword
  rw [Bool.not_eq_true', ← Bool.not_eq_true, List.isPrefixOf_iff_prefix] at hno
  exact absurd hprefix hno

lemma refersTo_name (hn : isSeriesName n = true) (hmem : n ∈ names) :
    RefersTo names n.toList := by
  intro word hword _
  rw [words_of_all (List.all_eq_true.1 hn), List.mem_singleton] at hword
  rwa [hword, String.ofList_toList]

lemma refersTo_empty : RefersTo names "".toList :=
  refersTo_of_isInert (by decide +kernel)

/-- No word stretches over both of two texts with a character between words at their border. -/
lemma RefersTo.append (hx : RefersTo names xs) (hy : RefersTo names ys)
    (h : endsApart xs = true ∨ startsApart ys = true) : RefersTo names (xs ++ ys) := by
  intro word hword hprefix
  rcases h with h | h
  · rcases xs.eq_nil_or_concat with rfl | ⟨front, c, rfl⟩
    · exact hy word hword hprefix
    · have hc : isSeriesChar c = false := by simpa [endsApart] using h
      rw [List.concat_append, words_append_cons hc] at hword
      rcases List.mem_append.1 hword with hword | hword
      · refine hx word ?_ hprefix
        rw [List.concat_eq_append, words_append_cons hc]
        exact List.mem_append_left _ hword
      · exact hy word hword hprefix
  · cases ys with
    | nil => exact hx word (by rwa [List.append_nil] at hword) hprefix
    | cons c back =>
      have hc : isSeriesChar c = false := by simpa [startsApart] using h
      rw [words_append_cons hc] at hword
      rcases List.mem_append.1 hword with hword | hword
      · exact hx word hword hprefix
      · refine hy word ?_ hprefix
        rw [words_cons hc]
        exact List.mem_cons_of_mem _ hword

/-- A text that refers to nothing, and no word goes on behind it. -/
structure IsLead (t : String) : Prop where
  ends : endsApart t.toList = true
  inert : isInert t = true

/-- A text that parts the words on both sides of it, and refers to nothing. -/
structure IsGlue (t : String) : Prop extends IsLead t where
  starts : startsApart t.toList = true
  nonempty : t.toList ≠ []

instance (t : String) : Decidable (IsLead t) :=
  decidable_of_iff (endsApart t.toList = true ∧ isInert t = true)
    ⟨fun ⟨he, hi⟩ => ⟨he, hi⟩, fun h => ⟨h.ends, h.inert⟩⟩

instance (t : String) : Decidable (IsGlue t) :=
  decidable_of_iff (IsLead t ∧ startsApart t.toList = true ∧ t.toList ≠ [])
    ⟨fun ⟨hl, hs, hn⟩ => ⟨hl, hs, hn⟩, fun h => ⟨h.toIsLead, h.starts, h.nonempty⟩⟩

lemma IsLead.refersTo (ht : IsLead t) (hy : RefersTo names ys) : RefersTo names (t.toList ++ ys) :=
  (refersTo_of_isInert ht.inert).append hy (.inl ht.ends)

lemma endsApart_append (xs : List Char) (ht : IsGlue t) : endsApart (xs ++ t.toList) = true := by
  rw [endsApart, List.getLast?_append_of_ne_nil _ ht.nonempty]
  exact ht.ends

lemma RefersTo.glue (hx : RefersTo names xs) (ht : IsGlue t) : RefersTo names (xs ++ t.toList) :=
  hx.append (refersTo_of_isInert ht.inert) (.inr ht.starts)

lemma RefersTo.around (hx : RefersTo names xs) (ht : IsGlue t) (hy : RefersTo names ys) :
    RefersTo names (xs ++ t.toList ++ ys) :=
  (hx.glue ht).append hy (.inl (endsApart_append xs ht))

/-- Three texts with texts between them that refer to nothing, as the expressions are written. -/
lemma refersTo_three (lead t u : String) {a b c : String} (hlead : IsLead lead) (ht : IsGlue t)
    (hu : IsGlue u) (ha : RefersTo names a.toList) (hb : RefersTo names b.toList)
    (hc : RefersTo names c.toList) : RefersTo names (lead ++ a ++ t ++ b ++ u ++ c).toList := by
  simp only [String.toList_append]
  exact ((hlead.refersTo ha).around ht hb).around hu hc

/-! ### What the ratio rules refer to -/

lemma isSeriesName_alertWindows : ∀ w ∈ alertWindows, isSeriesName w = true := by
  decide +kernel

lemma isInert_alertWindows : ∀ w ∈ alertWindows, isInert w = true := by
  decide +kernel

/-- A series for one window is a word of its own. -/
lemma refersTo_series {series w : String} (hseries : isSeriesName series = true)
    (hw : w ∈ alertWindows) (hmem : series ++ w ∈ names) :
    RefersTo names (series ++ w).toList := by
  refine refersTo_name ?_ hmem
  rw [isSeriesName, String.toList_append, List.all_append, Bool.and_eq_true]
  exact ⟨hseries, isSeriesName_alertWindows w hw⟩

namespace Kind

variable {w : String}

lemma refersTo_batchError :
    RefersTo [Series.batchThroughput, Series.batchThroughputTarget]
      ("1.0 - clamp_max(" ++ Series.batchThroughput ++ " / " ++ Series.batchThroughputTarget
        ++ ", 1.0)").toList := by
  have hthroughput : isSeriesName Series.batchThroughput = true := by decide +kernel
  have htarget : isSeriesName Series.batchThroughputTarget = true := by decide +kernel
  have hthroughput : RefersTo [Series.batchThroughput, Series.batchThroughputTarget]
      Series.batchThroughput.toList := refersTo_name hthroughput (by simp)
  have htarget : RefersTo [Series.batchThroughput, Series.batchThroughputTarget]
      Series.batchThroughputTarget.toList := refersTo_name htarget (by simp)
  have h := refersTo_three "1.0 - clamp_max(" " / " ", 1.0)" (by decide +kernel)
    (by decide +kernel) (by decide +kernel) hthroughput htarget refersTo_empty
  rwa [String.append_empty] at h

lemma refersTo_batch (hw : w ∈ alertWindows) :
    RefersTo [Series.batchError]
      ("avg_over_time(" ++ Series.batchError ++ "[" ++ w ++ "])").toList := by
  have hseries : isSeriesName Series.batchError = true := by decide +kernel
  have hseries : RefersTo [Series.batchError] Series.batchError.toList :=
    refersTo_name hseries (by simp)
  have h := refersTo_three "avg_over_time(" "[" "])" (by decide +kernel) (by decide +kernel)
    (by decide +kernel) hseries (refersTo_of_isInert (isInert_alertWindows w hw)) refersTo_empty
  rwa [String.append_empty] at h

lemma refersTo_errorRate (hw : w ∈ alertWindows) :
    RefersTo [Series.errors ++ w, Series.errorRateTotal ++ w]
      ("((" ++ Series.errors ++ w ++ ") or (0 * " ++ (Series.errorRateTotal ++ w) ++ ")) / "
        ++ (Series.errorRateTotal ++ w)).toList := by
  have herrors : isSeriesName Series.errors = true := by decide +kernel
  have htotal : isSeriesName Series.errorRateTotal = true := by decide +kernel
  have herrors : RefersTo [Series.errors ++ w, Series.errorRateTotal ++ w]
      (Series.errors ++ w).toList := refersTo_series herrors hw (by simp)
  have htotal : RefersTo [Series.errors ++ w, Series.errorRateTotal ++ w]
      (Series.errorRateTotal ++ w).toList := refersTo_series htotal hw (by simp)
  have h := refersTo_three "((" ") or (0 * " ")) / " (by decide +kernel) (by decide +kernel)
    (by decide +kernel) herrors htotal htotal
  simpa only [String.append_assoc] using h

lemma refersTo_latency (hw : w ∈ alertWindows) :
    RefersTo [Series.latencyTotal ++ w, Series.latencyObservation ++ w]
      ("(" ++ (Series.latencyTotal ++ w) ++ " - " ++ Series.latencyObservation ++ w ++ ") / "
        ++ (Series.latencyTotal ++ w)).toList := by
  have htotal : isSeriesName Series.latencyTotal = true := by decide +kernel
  have hobservation : isSeriesName Series.latencyObservation = true := by decide +kernel
  have htotal : RefersTo [Series.latencyTotal ++ w, Series.latencyObservation ++ w]
      (Series.latencyTotal ++ w).toList := refersTo_series htotal hw (by simp)
  have hobservation : RefersTo [Series.latencyTotal ++ w, Series.latencyObservation ++ w]
      (Series.latencyObservation ++ w).toList := refersTo_series hobservation hw (by simp)
  have h := refersTo_three "(" " - " ") / " (by decide +kernel) (by decide +kernel)
    (by decide +kernel) htotal hobservation htotal
  simpa only [String.append_assoc] using h

lemma exists_of_mem_ratioPerWindow {expr : String → String} {t : Rule}
    (h : t ∈ ratioPerWindow expr) : ∃ w ∈ alertWindows, t.expr = expr w := by
  obtain ⟨w, hw, rfl⟩ := List.mem_map.1 h
  exact ⟨w, hw, rfl⟩

lemma mem_seriesNames {series w : String} (hw : w ∈ alertWindows) :
    series ++ w ∈ seriesNames series :=
  List.mem_map_of_mem hw

/-- A ratio rule refers to series of an objective of the kind and of ratio rules before it. -/
lemma refersTo_ratioRule {k : Kind} {before after : List Rule} {t : Rule}
    (h : k.ratioRules = before ++ t :: after) :
    RefersTo (k.ownSeries ++ before.map Rule.name) t.expr.toList := by
  have hmem : t ∈ k.ratioRules := by simp [h]
  cases k with
  | batch =>
    cases before with
    | nil =>
      obtain ⟨rfl, -⟩ := List.cons.inj h
      refine refersTo_batchError.mono fun n hn => ?_
      rcases List.mem_pair.1 hn with rfl | rfl <;> simp [ownSeries]
    | cons q before =>
      obtain ⟨rfl, hrest⟩ := List.cons.inj h
      have hrest : (ratioPerWindow fun w => "avg_over_time(" ++ Series.batchError ++ "[" ++ w
          ++ "])") = before ++ t :: after := hrest
      obtain ⟨w, hw, hexpr⟩ := exists_of_mem_ratioPerWindow (t := t) (by rw [hrest]; simp)
      rw [hexpr]
      refine (refersTo_batch hw).mono fun n hn => ?_
      rw [List.mem_singleton.1 hn]
      exact List.mem_append_right _ List.mem_cons_self
  | errorRate =>
    obtain ⟨w, hw, hexpr⟩ := exists_of_mem_ratioPerWindow hmem
    rw [hexpr]
    refine (refersTo_errorRate hw).mono fun n hn => List.mem_append_left _ ?_
    rcases List.mem_pair.1 hn with rfl | rfl
    · exact List.mem_append_left _ (mem_seriesNames hw)
    · exact List.mem_append_right _ (mem_seriesNames hw)
  | latency =>
    obtain ⟨w, hw, hexpr⟩ := exists_of_mem_ratioPerWindow hmem
    rw [hexpr]
    refine (refersTo_latency hw).mono fun n hn => List.mem_append_left _ ?_
    rcases List.mem_pair.1 hn with rfl | rfl
    · exact List.mem_append_left _ (mem_seriesNames hw)
    · exact List.mem_append_right _ (mem_seriesNames hw)

lemma exists_mem_ratioRules (k : Kind) (hw : w ∈ alertWindows) :
    ∃ expr, .recording (Series.errorRatio ++ w) ∅ expr ∈ k.ratioRules := by
  have hratio (expr : String → String) :
      .recording (Series.errorRatio ++ w) ∅ (expr w) ∈ ratioPerWindow expr :=
    List.mem_map_of_mem hw
  cases k with
  | batch => exact ⟨_, List.mem_cons_of_mem _ (hratio _)⟩
  | errorRate => exact ⟨_, hratio _⟩
  | latency => exact ⟨_, hratio _⟩

/-- Ratio rules are recorded, not alerts. -/
lemma eq_recording_of_mem_ratioRules {k : Kind} {t : Rule} (h : t ∈ k.ratioRules) :
    t = .recording t.name ∅ t.expr := by
  have hratio (expr : String → String) (h : t ∈ ratioPerWindow expr) :
      t = .recording t.name ∅ t.expr := by
    obtain ⟨w, -, rfl⟩ := List.mem_map.1 h
    rfl
  cases k with
  | batch =>
    rcases List.mem_cons.1 h with rfl | h
    · rfl
    · exact hratio _ h
  | errorRate => exact hratio _ h
  | latency => exact hratio _ h

end Kind

/-! ### What the alerts refer to -/

namespace Burn

/-- The windows and the factor are as those of the alerts. -/
structure IsUsual (b : Burn) : Prop where
  long : b.long ∈ alertWindows
  short : b.short ∈ alertWindows
  factor : isInert b.factor = true

instance (b : Burn) : Decidable b.IsUsual :=
  decidable_of_iff (b.long ∈ alertWindows ∧ b.short ∈ alertWindows ∧ isInert b.factor = true)
    ⟨fun ⟨hl, hs, hf⟩ => ⟨hl, hs, hf⟩, fun h => ⟨h.long, h.short, h.factor⟩⟩

/-- The series that alerts are about. -/
def series : List String := Series.errorBudget :: seriesNames Series.errorRatio

/-- A burn over one window, without the end of its line. -/
def excess (factor window : String) : String :=
  "  " ++ Series.errorRatio ++ window ++ " > on(name) group_left() (" ++ factor ++ " * "
    ++ Series.errorBudget

lemma refersTo_excess {factor w : String} (hfactor : isInert factor = true)
    (hw : w ∈ alertWindows) : RefersTo series (excess factor w).toList := by
  have hbudget : isSeriesName Series.errorBudget = true := by decide +kernel
  have hratio : isSeriesName Series.errorRatio = true := by decide +kernel
  have hratio : RefersTo series (Series.errorRatio ++ w).toList :=
    refersTo_series hratio hw (List.mem_cons_of_mem _ (Kind.mem_seriesNames hw))
  have hbudget : RefersTo series Series.errorBudget.toList :=
    refersTo_name hbudget List.mem_cons_self
  have h := refersTo_three "  " " > on(name) group_left() (" " * " (by decide +kernel)
    (by decide +kernel) (by decide +kernel) hratio (refersTo_of_isInert hfactor) hbudget
  rwa [← String.append_assoc] at h

lemma condition_eq (b : Burn) : b.condition =
    "(\n" ++ excess b.factor b.long ++ ")\nand\n" ++ excess b.factor b.short ++ ")\n)" := by
  have hand : ")\nand\n" = ")\n" ++ "and\n" := rfl
  have hclose : ")\n)" = ")\n" ++ ")" := rfl
  simp only [condition, above, excess, hand, hclose, String.append_assoc]

lemma refersTo_condition {b : Burn} (h : b.IsUsual) : RefersTo series b.condition.toList := by
  have hall := refersTo_three "(\n" ")\nand\n" ")\n)" (by decide +kernel) (by decide +kernel)
    (by decide +kernel) (refersTo_excess h.factor h.long) (refersTo_excess h.factor h.short)
    refersTo_empty
  rwa [String.append_empty, ← condition_eq] at hall

lemma refersTo_alert {name : String} {hold : Duration} {a b : Burn} (ha : a.IsUsual)
    (hb : b.IsUsual) : RefersTo series (alert name hold a b).expr.toList := by
  have hall := refersTo_three "" "\nor\n" "\n" (by decide +kernel) (by decide +kernel)
    (by decide +kernel) (refersTo_condition ha) (refersTo_condition hb) refersTo_empty
  rwa [String.append_empty, String.empty_append] at hall

end Burn

lemma refersTo_alertRules : ∀ a ∈ alertRules, RefersTo Burn.series a.expr.toList := by
  intro a ha
  simp only [alertRules, List.mem_cons, List.not_mem_nil, or_false] at ha
  rcases ha with rfl | rfl
  · exact Burn.refersTo_alert (by decide +kernel) (by decide +kernel)
  · exact Burn.refersTo_alert (by decide +kernel) (by decide +kernel)

/-! ### The rules of a group -/

/-- How the rules of an objective and the ratio rules of its kind work together. -/
structure Slo.EndsInRatios (s : Slo) (own : List Rule) : Prop where
  /-- The kind records the error ratio over every window. -/
  ratios : ∀ w ∈ alertWindows, ∃ expr,
    .recording (Series.errorRatio ++ w) ∅ expr ∈ s.kind.ratioRules
  /-- What a ratio rule refers to is recorded under the name of the objective, or before it. -/
  resolved : ∀ before t after, s.kind.ratioRules = before ++ t :: after →
    ∀ series, IsRecordName series → Mentions t.expr series →
      (∃ r ∈ own, r.IsRecordedFor s.name ∧ r.name = series) ∨
        ∃ expr, .recording series ∅ expr ∈ before

lemma Slo.endsInRatios_of_rules {s : Slo} {rs : List Rule} (h : s.rules = .ok rs) :
    s.EndsInRatios rs := by
  refine ⟨fun w hw => s.kind.exists_mem_ratioRules hw, fun before t after hsplit series hname
    hmention => ?_⟩
  have hmem := (Kind.refersTo_ratioRule hsplit).mem hname hmention
  rcases List.mem_append.1 hmem with hown | hbefore
  · have hrecorded : series ∈ rs.map Rule.name := by
      rw [map_name_of_rules h]
      exact List.mem_append_right _ hown
    obtain ⟨r, hr, hseries⟩ := List.mem_map.1 hrecorded
    exact .inl ⟨r, hr, (brings_of_rules h).recorded r hr, hseries⟩
  · obtain ⟨q, hq, rfl⟩ := List.mem_map.1 hbefore
    have hratio : q ∈ s.kind.ratioRules := by
      rw [hsplit]
      exact List.mem_append_left _ hq
    exact .inr ⟨q.expr, Kind.eq_recording_of_mem_ratioRules hratio ▸ hq⟩

lemma Registry.ratioRules_infix {r : Registry} {k : Kind} (h : k ∈ r.kinds) :
    k.ratioRules <:+: r.ratioRules := by
  obtain ⟨before, after, hkinds⟩ := List.append_of_mem h
  refine ⟨before.flatMap Kind.ratioRules, after.flatMap Kind.ratioRules, ?_⟩
  rw [ratioRules, hkinds, List.flatMap_append, List.flatMap_cons, List.append_assoc]

namespace Pipeline

/-- **Nothing dangles**: in every group that is built for objectives of registered kinds, the rules
of each objective end in the error ratios, and all series that ratio rules and alerts refer to are
recorded. -/
theorem build_refersToRecorded (name : String) (cs : List Call) (r : Registry)
    (hkinds : ∀ s ∈ accepted { name } cs, s.kind ∈ r.kinds) :
    ∃ rss rules, (run { name } cs).build r = ⟨[⟨name, rules⟩]⟩ ∧
      rules = rss.flatten ++ r.ratioRules ++ alertRules ∧
      -- each objective has a block of its own, and its kind has one that resolves into it
      List.Forall₂ (fun s own => s.rules = .ok own ∧ s.kind.ratioRules <:+: r.ratioRules ∧
        s.EndsInRatios own) (accepted { name } cs) rss ∧
      -- what the alerts refer to is recorded as soon as there is an objective
      (accepted { name } cs ≠ [] → ∀ a ∈ alertRules, ∀ series, IsRecordName series →
        Mentions a.expr series → ∃ labels expr, .recording series labels expr ∈ rules) := by
  have h : Holds name (run { name } cs) (accepted { name } cs) := (Holds.start name).run cs
  obtain ⟨rss, hrules, hbuild⟩ := h.build r
  refine ⟨rss, _, hbuild, rfl, ?_, fun hne a ha series hname hmention => ?_⟩
  · refine ((List.forall₂_and_left _ _).2 ⟨hkinds, hrules⟩).imp fun s own hs => ?_
    exact ⟨hs.2, Registry.ratioRules_infix hs.1, Slo.endsInRatios_of_rules hs.2⟩
  · obtain ⟨s, hs⟩ := List.exists_mem_of_ne_nil _ hne
    obtain ⟨own, hown, hsrules⟩ := exists_of_mem_forall₂ hrules.flip hs
    rcases List.mem_cons.1 ((refersTo_alertRules a ha).mem hname hmention) with rfl | hratio
    · have hbudget := (Slo.brings_of_rules hsrules).mem_budget
      refine ⟨s.objective.join ∅, s.objective.budgetText, ?_⟩
      exact List.mem_append_left _ (List.mem_append_left _ (List.mem_flatten.2 ⟨_, hown, hbudget⟩))
    · obtain ⟨w, hw, rfl⟩ := List.mem_map.1 hratio
      obtain ⟨expr, hmem⟩ := s.kind.exists_mem_ratioRules hw
      refine ⟨∅, expr, List.mem_append_left _ (List.mem_append_right _ ?_)⟩
      exact (Registry.ratioRules_infix (hkinds s hs)).subset hmem

/-- A job that copies rows over night. -/
def copyJob : Slo :=
  .batch
    { name := "copy", budget := 0.5, deadline := .ofParts 7200 0, volume := "10",
      throughput := "rate(rows[5m])" }

/-- The group of one objective, with the ratio rules of its kind alone. -/
theorem copyJob_refersToRecorded :
    accepted { name := "jobs" } [.register copyJob] = [copyJob] ∧
      ∃ (own rules : List Rule),
        (run { name := "jobs" } [.register copyJob]).build (.ofList [.batch]) =
          ⟨[⟨"jobs", rules⟩]⟩ ∧
        rules = own ++ Kind.batch.ratioRules ++ alertRules ∧
        copyJob.rules = .ok own ∧ copyJob.EndsInRatios own ∧
        ∀ a ∈ alertRules, ∀ series, IsRecordName series → Mentions a.expr series →
          ∃ labels expr, .recording series labels expr ∈ rules := by
  have haccepted : accepted { name := "jobs" } [.register copyJob] = [copyJob] := rfl
  have hkinds : ∀ s ∈ accepted { name := "jobs" } [.register copyJob],
      s.kind ∈ (Registry.ofList [.batch]).kinds := by
    intro s hs
    rw [haccepted, List.mem_singleton] at hs
    rw [hs]
    decide
  have hratio : (Registry.ofList [.batch]).ratioRules = Kind.batch.ratioRules := by
    rw [Registry.ratioRules]
    exact List.append_nil _
  obtain ⟨rss, rules, hbuild, hrules, hown, halerts⟩ := build_refersToRecorded _ _ _ hkinds
  rw [haccepted] at hown halerts
  rw [hratio] at hrules
  rcases hown with _ | ⟨⟨hsrules, -, hends⟩, _ | _⟩
  rw [List.flatten_singleton] at hrules
  exact ⟨haccepted, _, rules, hbuild, hrules, hsrules, hends, halerts (by simp)⟩

end Pipeline

end BurnRate
