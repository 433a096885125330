import BurnRate.Proofs.PipelineHistory
import BurnRate.Proofs.Results
import BurnRate.Proofs.ScalarLines

/-!
Rule files that differ where their objectives do.

A rule file is a header with the name of the group and then the lines of one rule after the other.
The lines of a rule depend on nothing else, whatever its texts are. So one more objective shows up
as one more block of lines.
-/

namespace BurnRate

open Yaml

/-! ### Lines of a text -/

namespace Yaml

/-- Cuts a text behind each of its line ends. -/
def lines (isEnd : Char → Bool) : List Char → List (List Char)
  | [] => []
  | c :: cs =>
    if isEnd c then [c] :: lines isEnd cs
    else
      match lines isEnd cs with
      | [] => [[c]]
      | l :: ls => (c :: l) :: ls

/-- The text does not stop inside a line. -/
def IsWhole (isEnd : Char → Bool) (cs : List Char) : Prop := ∀ c ∈ cs.getLast?, isEnd c = true

/-- The second text is the first one with a block of lines put in between two lines, in front of
them or behind them. -/
structure InsertsLines (isEnd : Char → Bool) (block before after : String) : Prop where
  whole : IsWhole isEnd block.toList
  inserted : ∃ head tail, lines isEnd before.toList = head ++ tail ∧
    lines isEnd after.toList = head ++ lines isEnd block.toList ++ tail

variable {isEnd : Char → Bool} {c : Char} {cs as bs : List Char} {n : ℕ}

lemma isWhole_nil : IsWhole isEnd [] := by
  intro c hc
  cases hc

lemma isWhole_append_of_ne_nil (as : List Char) (hne : bs ≠ []) :
    IsWhole isEnd (as ++ bs) ↔ IsWhole isEnd bs := by
  rw [IsWhole, IsWhole, List.getLast?_append_of_ne_nil as hne]

lemma IsWhole.append (ha : IsWhole isEnd as) (hb : IsWhole isEnd bs) :
    IsWhole isEnd (as ++ bs) := by
  by_cases hne : bs = []
  · rwa [hne, List.append_nil]
  · exact (isWhole_append_of_ne_nil as hne).2 hb

lemma lines_ne_nil (isEnd : Char → Bool) (hne : cs ≠ []) : lines isEnd cs ≠ [] := by
  cases cs with
  | nil => exact absurd rfl hne
  | cons c cs =>
    rw [lines]
    split
    · simp
    · split <;> simp

/-- Behind whole lines a text is cut as it is alone. -/
lemma lines_append (h : IsWhole isEnd as) (bs : List Char) :
    lines isEnd (as ++ bs) = lines isEnd as ++ lines isEnd bs := by
  induction as with
  | nil => rfl
  | cons a as ih =>
    by_cases hne : as = []
    · subst hne
      have ha : isEnd a = true := h a rfl
      simp [lines, ha]
    · have has : IsWhole isEnd as := (isWhole_append_of_ne_nil [a] hne).1 h
      rw [List.cons_append, lines, lines, ih has]
      split
      · rfl
      · obtain ⟨l, ls, hlines⟩ := List.exists_cons_of_ne_nil (lines_ne_nil isEnd hne)
        rw [hlines]
        rfl

lemma insertsLines_of_isWhole {head block : String} (hhead : IsWhole isEnd head.toList)
    (hblock : IsWhole isEnd block.toList) (tail : String) :
    InsertsLines isEnd block (head ++ tail) (head ++ block ++ tail) := by
  refine ⟨hblock, lines isEnd head.toList, lines isEnd tail.toList, ?_, ?_⟩
  · rw [String.toList_append, lines_append hhead]
  · rw [String.toList_append, lines_append, String.toList_append, lines_append hhead]
    rw [String.toList_append]
    exact hhead.append hblock

/-! ### The end of a scalar -/

lemma getLast?_indentLines (indent : ℕ) (atStart : Bool) (cs : List Char) :
    (indentLines indent atStart cs).getLast? = cs.getLast? := by
  induction cs generalizing atStart with
  | nil => rfl
  | cons c cs ih =>
    rw [indentLines]
    split
    · rw [List.getLast?_cons, List.getLast?_cons, ih]
    · rw [List.getLast?_append_of_ne_nil _ (List.cons_ne_nil _ _), List.getLast?_cons,
        List.getLast?_cons, ih]

/-- A scalar ends in a break only if its text does, which is then written as it is. -/
lemma break_of_writeScalar (hc : c ∈ (writeScalar n cs).getLast?) (hbreak : isBreak c = true) :
    c ∈ cs.getLast? ∧ isPrintable c = true := by
  have hquote (q : Char) (hq : isBreak q = false) {body : List Char}
      (hmem : c ∈ (q :: body ++ [q]).getLast?) : c ∈ cs.getLast? ∧ isPrintable c = true := by
    rw [List.getLast?_concat, Option.mem_some_iff] at hmem
    rw [← hmem, hq] at hbreak
    cases hbreak
  unfold writeScalar at hc
  split at hc
  · next hstyle =>
    -- a plain scalar has no break in it
    have hplain := (choose_plain hstyle).1
    simp only [allowsPlain, Bool.and_eq_true, Bool.not_eq_true', List.any_eq_false] at hplain
    exact absurd hbreak (hplain.1.1.1.1.2 c (List.mem_of_getLast? hc))
  · exact hquote _ rfl hc
  · exact hquote _ rfl hc
  · next hstyle =>
    obtain ⟨hfeed, hprintable⟩ := choose_literal hstyle
    have hne : indentLines n true cs ≠ [] := by
      intro hnil
      have hlast := getLast?_indentLines n true cs
      rw [hnil, List.getLast?_nil] at hlast
      rw [List.getLast?_eq_none_iff.1 hlast.symm] at hfeed
      cases hfeed
    rw [List.getLast?_append_of_ne_nil _ (List.cons_ne_nil _ _), List.getLast?_cons_of_ne_nil hne,
      getLast?_indentLines] at hc
    exact ⟨hc, hprintable c (List.mem_of_getLast? hc)⟩

/-- The breaks that a text can end in where it is written down as a literal block. -/
def LastBreaksEnd (isEnd : Char → Bool) (cs : List Char) : Prop :=
  ∀ c ∈ cs.getLast?, isBreak c = true → isPrintable c = true → isEnd c = true

lemma endLine_ne_nil (cs : List Char) : endLine cs ≠ [] := by
  rw [endLine]
  split
  · rintro rfl
    contradiction
  · simp

/-- The line of a scalar is ended by a line feed, or by the break at the end of its text. -/
lemma isWhole_endLine (hfeed : isEnd '\n' = true) (h : LastBreaksEnd isEnd cs) :
    IsWhole isEnd (endLine (writeScalar n cs)) := by
  intro c hc
  rw [endLine] at hc
  split at hc
  · next hlast =>
    rw [Option.mem_def.1 hc, Option.any_some] at hlast
    obtain ⟨hend, hprintable⟩ := break_of_writeScalar hc hlast
    exact h c hend hlast hprintable
  · rw [List.getLast?_concat, Option.mem_some_iff] at hc
    rw [← hc]
    exact hfeed

end Yaml

/-! ### The parts of a rule file -/

/-- What stands in front of the rules of a group. -/
def groupHeader (name : String) : String :=
  "groups:\n- " ++ String.ofList (Block.writeField 2 ("name", .text name)) ++ "  rules:\n"

/-- A rule as an item of its group. -/
def Rule.entry (r : Rule) : String :=
  String.ofList (spaces 2 ++ '-' :: ' ' :: r.toBlock.writeAt 4)

/-- Rules in a row, as items of their group. -/
def entries (rs : List Rule) : String := String.join (rs.map Rule.entry)

lemma entries_append (rs ts : List Rule) : entries (rs ++ ts) = entries rs ++ entries ts := by
  rw [entries, List.map_append, String.join_append, entries, entries]

/-- The items of a list stand below its key. -/
lemma writeField_items (indent : ℕ) {key : String} (hkey : isSimpleKey key.toList = true)
    (hplain : Style.choose key.toList = .plain) (b : Block) (bs : List Block) :
    Block.writeField indent (key, .list (b :: bs)) =
      key.toList ++ [':', '\n'] ++ Block.writeItems indent (b :: bs) := by
  rw [Block.writeField, if_pos hkey, writeScalar, hplain, Block.writeValue, Block.writeItems]
  simp only [List.append_assoc, List.cons_append, List.nil_append]

lemma writeItems_eq (rs : List Rule) :
    Block.writeItems 2 (rs.map Rule.toBlock) = (entries rs).toList := by
  induction rs with
  | nil => rfl
  | cons r rs ih =>
    rw [List.map_cons, Block.writeItems, ih, entries, entries, List.map_cons, String.join_cons,
      String.toList_append, Rule.entry, String.toList_ofList]

/-- A file of one group is its header and one entry after the other. -/
lemma RuleGroup.toYaml_eq (g : RuleGroup) (h : g.rules ≠ []) :
    (RuleGroups.mk [g]).toYaml = groupHeader g.name ++ entries g.rules := by
  obtain ⟨r, rs, hrules⟩ := List.exists_cons_of_ne_nil h
  have hgroups : Block.writeField 0 ("groups", .list [g.toBlock]) =
      "groups:\n".toList ++ Block.writeItems 0 [g.toBlock] :=
    writeField_items 0 (by decide) (by decide) g.toBlock []
  have hkey : Block.writeField 2 ("rules", .list (g.rules.map Rule.toBlock)) =
      "rules:\n".toList ++ (entries g.rules).toList := by
    rw [← writeItems_eq, hrules]
    exact writeField_items 2 (by decide) (by decide) r.toBlock (rs.map Rule.toBlock)
  have hgroup : g.toBlock.writeAt 2 = Block.writeField 2 ("name", .text g.name) ++
      "  rules:\n".toList ++ (entries g.rules).toList := by
    rw [RuleGroup.toBlock, Block.writeAt, Block.writeFields, Block.writeFields, hkey]
    simp [spaces]
  rw [← String.toList_inj, RuleGroups.toYaml, Block.write, String.toList_ofList,
    RuleGroups.toBlock, List.map_singleton, Block.writeAt, Block.writeFields, hgroups,
    Block.writeItems, Block.writeItems, hgroup, groupHeader]
  simp [spaces]

lemma isWhole_groupHeader {isEnd : Char → Bool} (hfeed : isEnd '\n' = true) (name : String) :
    IsWhole isEnd (groupHeader name).toList := by
  rw [groupHeader, String.toList_append, isWhole_append_of_ne_nil _ (by decide)]
  intro c hc
  obtain rfl : '\n' = c := Option.some.inj hc
  exact hfeed

lemma writeFields_append (indent : ℕ) (fs gs : List (String × Block)) :
    Block.writeFields indent (fs ++ gs) =
      Block.writeFields indent fs ++ Block.writeFields indent gs := by
  induction fs with
  | nil => rfl
  | cons f fs ih =>
    rw [List.cons_append, Block.writeFields, Block.writeFields, ih]
    simp only [List.append_assoc]

/-- The expression is the last field of a rule. -/
lemma Rule.exists_toBlock (r : Rule) :
    ∃ f fs, r.toBlock = .record (f :: (fs ++ [("expr", .text r.expr)])) := by
  cases r with
  | recording record labels expr => exact ⟨_, labels.field, rfl⟩
  | alerting alert hold labels expr => exact ⟨_, ("for", .text hold.text) :: labels.field, rfl⟩

/-- What a rule has last is the scalar of its expression. -/
lemma Rule.exists_entry (r : Rule) :
    ∃ front, r.entry.toList = front ++ endLine (writeScalar 6 r.expr.toList) := by
  obtain ⟨f, fs, hblock⟩ := r.exists_toBlock
  have hexpr : Block.writeField 4 ("expr", .text r.expr) =
      "expr: ".toList ++ endLine (writeScalar 6 r.expr.toList) := by
    have hkey : writeScalar 6 "expr".toList = "expr".toList := by decide
    rw [Block.writeField, if_pos (by decide), hkey, Block.writeValue]
    rfl
  refine ⟨spaces 2 ++ '-' :: ' ' :: (Block.writeField 4 f ++ Block.writeFields 4 fs ++
    spaces 4 ++ "expr: ".toList), ?_⟩
  rw [entry, String.toList_ofList, hblock, Block.writeAt, writeFields_append, Block.writeFields,
    Block.writeFields, hexpr]
  simp only [List.append_assoc, List.cons_append, List.append_nil]

/-- The entry of a rule ends a line. -/
lemma Rule.isWhole_entry {isEnd : Char → Bool} (hfeed : isEnd '\n' = true) {r : Rule}
    (h : LastBreaksEnd isEnd r.expr.toList) : IsWhole isEnd r.entry.toList := by
  obtain ⟨front, hentry⟩ := r.exists_entry
  rw [hentry, isWhole_append_of_ne_nil front (endLine_ne_nil _)]
  exact isWhole_endLine hfeed h

lemma isWhole_entries {isEnd : Char → Bool} (hfeed : isEnd '\n' = true) {rs : List Rule}
    (h : ∀ r ∈ rs, LastBreaksEnd isEnd r.expr.toList) : IsWhole isEnd (entries rs).toList := by
  induction rs with
  | nil => exact isWhole_nil
  | cons r rs ih =>
    obtain ⟨hr, hrs⟩ := List.forall_mem_cons.1 h
    rw [entries, List.map_cons, String.join_cons, String.toList_append]
    exact (r.isWhole_entry hfeed hr).append (ih hrs)

/-! ### One more objective -/

/-- The expression ends in a line separator or a paragraph separator, which end lines of YAML, but
are no line feeds. -/
def Rule.endsInSeparator (r : Rule) : Bool :=
  r.expr.toList.getLast?.any fun c => c == '\u2028' || c == '\u2029'

lemma lastBreaksEnd_isBreak (cs : List Char) : LastBreaksEnd isBreak cs :=
  fun _ _ hbreak _ => hbreak

lemma Rule.lastBreaksEnd_lineFeed {r : Rule} (h : r.endsInSeparator = false) :
    LastBreaksEnd (· == '\n') r.expr.toList := by
  intro c hc hbreak hprintable
  rw [endsInSeparator, Option.mem_def.1 hc, Option.any_some] at h
  have hreturn : c ≠ '\r' := ne_of_printable hprintable rfl
  have hnext : c ≠ '\x85' := ne_of_printable hprintable rfl
  simp_all [isBreak]

namespace Pipeline

variable {p q : Pipeline} {s : Slo} {name : String} {ss before after : List Slo}
  {rs : List Rule} {rss : List (List Rule)}

/-- A group is written as its header and one entry after the other. -/
lemma toYaml_build (p : Pipeline) (r : Registry) : (p.build r).toYaml =
    groupHeader p.name ++ entries (p.rules ++ r.ratioRules ++ alertRules) := by
  have hne : p.rules ++ r.ratioRules ++ alertRules ≠ [] :=
    List.append_ne_nil_of_right_ne_nil _ (by decide)
  exact RuleGroup.toYaml_eq ⟨p.name, _⟩ hne

/-- Objectives that are registered bring the rules of one after the other. -/
lemma rules_of_registerAll (h : registerAll { name } ss = .ok p)
    (hss : List.Forall₂ (fun s rs => s.rules = .ok rs) ss rss) :
    p.name = name ∧ p.rules = rss.flatten := by
  obtain ⟨hname, -, rss', hall, hrules⟩ := (Holds.start name).registerAll h
  have hsame : (.ok rss' : Except RenderError (List (List Rule))) = .ok rss := by
    rw [← mapM_eq_ok_iff.2 hss, ← mapM_eq_ok_iff.2 hall]
    rfl
  cases hsame
  exact ⟨hname, hrules⟩

/-- With one more objective, a list that is registered is registered still, and the rules of the
objective are put in between those of the others. -/
lemma exists_registerAll (h : registerAll { name } (before ++ after) = .ok p)
    (hfresh : s.name ∉ (before ++ after).map Slo.name) (hrs : s.rules = .ok rs) :
    ∃ q as bs, registerAll { name } (before ++ s :: after) = .ok q ∧ p.name = name ∧
      q.name = name ∧ p.rules = as ++ bs ∧ q.rules = as ++ rs ++ bs := by
  obtain ⟨hnodup, hok⟩ := registerAll_start_ok_iff.1 ⟨p, h⟩
  obtain ⟨rss, hall⟩ := mapM_ok_iff.2 hok
  obtain ⟨us, vs, hbefore, hafter, rfl⟩ := forall₂_append_left_iff.1 (mapM_eq_ok_iff.1 hall)
  have hmore : List.Forall₂ (fun s rs => s.rules = .ok rs) (before ++ s :: after)
      (us ++ rs :: vs) := List.rel_append hbefore (.cons hrs hafter)
  obtain ⟨q, hq⟩ : ∃ q, registerAll { name } (before ++ s :: after) = .ok q := by
    refine registerAll_start_ok_iff.2 ⟨?_, mapM_ok_iff.1 ⟨_, mapM_eq_ok_iff.2 hmore⟩⟩
    rw [List.map_append, List.map_cons, List.nodup_middle, ← List.map_append]
    exact List.nodup_cons.2 ⟨hfresh, hnodup⟩
  obtain ⟨hp, hprules⟩ := rules_of_registerAll h (mapM_eq_ok_iff.1 hall)
  obtain ⟨hqname, hqrules⟩ := rules_of_registerAll hq hmore
  refine ⟨q, us.flatten, vs.flatten, hq, hp, hqname, ?_, ?_⟩
  · rw [hprules, List.flatten_append]
  · rw [hqrules, List.flatten_append, List.flatten_cons, List.append_assoc]

/-- The lines of the rules are put in between the others, for any lines that the rules respect. -/
lemma insertsLines_build {isEnd : Char → Bool} (hfeed : isEnd '\n' = true) {as bs : List Rule}
    (hname : q.name = p.name) (hp : p.rules = as ++ bs) (hq : q.rules = as ++ rs ++ bs)
    (hends : ∀ rule ∈ q.rules, LastBreaksEnd isEnd rule.expr.toList) (r : Registry) :
    InsertsLines isEnd (entries rs) (p.build r).toYaml (q.build r).toYaml := by
  rw [hq, List.append_assoc, List.forall_mem_append, List.forall_mem_append] at hends
  have hhead : IsWhole isEnd (groupHeader p.name ++ entries as).toList := by
    rw [String.toList_append]
    exact (isWhole_groupHeader hfeed p.name).append (isWhole_entries hfeed hends.1)
  have hinsert := insertsLines_of_isWhole hhead (isWhole_entries hfeed hends.2.1)
    (entries (bs ++ r.ratioRules ++ alertRules))
  rw [toYaml_build, toYaml_build, hname, hp, hq]
  simp only [List.append_assoc, entries_append, String.append_assoc] at hinsert ⊢
  exact hinsert

/-- **Rule files differ locally**: a file is its header, which the name determines, and the entry of
one rule after the other. One more objective puts the entries of its rules in between, as lines of
YAML, and as lines up to line feeds if no expression ends in another line end. -/
theorem build_differsLocally :
    (∀ (p : Pipeline) (r : Registry), (p.build r).toYaml =
      groupHeader p.name ++ entries (p.rules ++ r.ratioRules ++ alertRules)) ∧
      ∀ (name : String) (before after : List Slo) (s : Slo) (rs : List Rule) (p : Pipeline)
        (r : Registry), registerAll { name } (before ++ after) = .ok p →
          s.name ∉ (before ++ after).map Slo.name → s.rules = .ok rs →
            ∃ q, registerAll { name } (before ++ s :: after) = .ok q ∧
              InsertsLines isBreak (entries rs) (p.build r).toYaml (q.build r).toYaml ∧
              ((∀ rule ∈ q.rules, rule.endsInSeparator = false) →
                InsertsLines (· == '\n') (entries rs) (p.build r).toYaml (q.build r).toYaml) := by
  refine ⟨toYaml_build, fun name before after s rs p r h hfresh hrs => ?_⟩
  obtain ⟨q, as, bs, hq, hpname, hqname, hprules, hqrules⟩ := exists_registerAll h hfresh hrs
  have hname : q.name = p.name := hqname.trans hpname.symm
  refine ⟨q, hq, ?_, fun hends => ?_⟩
  · exact insertsLines_build rfl hname hprules hqrules (fun _ _ => lastBreaksEnd_isBreak _) r
  · exact insertsLines_build rfl hname hprules hqrules
      (fun rule hrule => rule.lastBreaksEnd_lineFeed (hends rule hrule)) r

/-- A job with ten rows to copy in two hours. -/
def jobOf (name : String) : BatchSlo :=
  { name, budget := 0.5, deadline := .ofParts 7200 0, volume := "10",
    throughput := "rate(rows[5m])" }

/-- A job between two others shows up as the entries of its own rules. -/
theorem build_jobs_differLocally :
    ∃ p q, registerAll { name := "jobs" } [.batch (jobOf "a"), .batch (jobOf "c")] = .ok p ∧
      registerAll { name := "jobs" } [.batch (jobOf "a"), .batch (jobOf "b"), .batch (jobOf "c")] =
        .ok q ∧
      InsertsLines isBreak (entries (jobOf "b").rules) (p.build .default).toYaml
        (q.build .default).toYaml := by
  obtain ⟨p, hp⟩ : ∃ p, registerAll { name := "jobs" }
      [.batch (jobOf "a"), .batch (jobOf "c")] = .ok p :=
    registerAll_start_ok_iff.2 ⟨by decide, by simp [Slo.rules]⟩
  obtain ⟨q, hq, hinserts, -⟩ := build_differsLocally.2 "jobs" [.batch (jobOf "a")]
    [.batch (jobOf "c")] (.batch (jobOf "b")) (jobOf "b").rules p .default hp (by decide) rfl
  exact ⟨p, q, hp, hq, hinserts⟩

end Pipeline

end BurnRate
