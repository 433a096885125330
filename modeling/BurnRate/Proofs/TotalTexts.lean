import BurnRate.Expression.Render
import BurnRate.Proofs.TextNames
import Mathlib.Tactic.FinCases

/-!
Texts that render whenever their free names have values.

Such a text copies, writes, branches and assigns; its expressions join, compare and choose, and
apply only those filters and tests that no text value can make fail.
-/

namespace BurnRate.Expression

/-- Filters that turn every text into a text. -/
def textFilters : List String :=
  ["upper", "lower", "title", "capitalize", "safe", "escape", "e", "trim", "string", "reverse",
    "default", "d", "pprint"]

/-- Tests that have an answer for every value. -/
def plainTests : List String :=
  ["undefined", "defined", "none", "safe", "escaped", "boolean", "true", "false", "odd", "even",
    "number", "integer", "int", "float", "string", "sequence", "mapping", "iterable", "filter",
    "test"]

mutual

/-- The value is a text, as long as the names stand for texts. -/
def Expr.isText : Expr → Bool
  | .literal (.text _) => true
  | .var name => name != "self"
  | .binary .join a b => a.isTotal && b.isTotal
  | .choose condition yes (some no) => condition.isTotal && yes.isText && no.isText
  | .filter name (some target) [] => textFilters.contains name && target.isText
  | _ => false

/-- The expression has a value that can be written, as long as its names stand for texts. -/
def Expr.isTotal : Expr → Bool
  | .literal _ => true
  | .var name => name != "self"
  | .not e => e.isTotal
  | .binary op a b => [Operator.or, .and, .join].contains op && a.isTotal && b.isTotal
  | .compare first rest => first.isTotal && compareTotally rest
  | .choose condition yes no? => condition.isTotal && yes.isTotal && isTotalOption no?
  | .filter name (some target) [] => textFilters.contains name && target.isText
  | .test name target [] => plainTests.contains name && target.isTotal
  | .list items => allTotal items
  | .map entries => entriesTotal entries
  | _ => false

def isTotalOption : Option Expr → Bool
  | none => true
  | some e => e.isTotal

def allTotal : List Expr → Bool
  | [] => true
  | e :: es => e.isTotal && allTotal es

/-- What a value is searched in has to be a text. -/
def compareTotally : List (Relation × Expr) → Bool
  | [] => true
  | (r, e) :: es =>
    (if [Relation.contained, .notContained].contains r then e.isText else e.isTotal)
      && compareTotally es

def entriesTotal : List (Expr × Expr) → Bool
  | [] => true
  | (k, v) :: es => k.isTotal && v.isTotal && entriesTotal es

end

mutual

/-- The statement has an effect, as long as its free names stand for texts. -/
def Statement.isTotal : Statement → Bool
  | .copy _ => true
  | .emit e => e.isTotal
  | .branch condition yes no => condition.isTotal && statementsTotal yes && statementsTotal no
  | .assign (.var name) value => value.isText && !value.names.contains name
  | _ => false

def statementsTotal : List Statement → Bool
  | [] => true
  | s :: ss => s.isTotal && statementsTotal ss

end

/-! ### Operations that cannot fail -/

lemma Value.applyFilter_text {name : String} (h : textFilters.contains name = true) (s : String)
    (safe : Bool) :
    ∃ t safe', Value.applyFilter 1 name (.text s safe) {} = .ok (.text t safe') := by
  rw [textFilters, List.contains_iff_mem] at h
  fin_cases h <;> exact ⟨_, _, rfl⟩

lemma Value.test_plain {name : String} (h : plainTests.contains name = true) (v : Value) :
    ∃ b, v.test name {} = .ok b := by
  rw [plainTests, List.contains_iff_mem] at h
  fin_cases h <;> exact ⟨_, rfl⟩

/-- Neither missing nor a reference to a record. -/
def Value.isWritable : Value → Bool
  | .undefined silent => silent
  | .record _ => false
  | _ => true

lemma Value.isMissing_of_isWritable {v : Value} (h : v.isWritable = true) :
    v.isMissing = false := by
  cases v <;> simp_all [isWritable, isMissing]

lemma Value.truth_of_isWritable {v : Value} (h : v.isWritable = true) :
    v.truth = .ok v.isTrue := by
  simp [truth, isMissing_of_isWritable h]

lemma Value.ordered_of_isWritable {v w : Value} (hv : v.isWritable = true)
    (hw : w.isWritable = true) (p : Ordering → Bool) : ∃ b, v.ordered w p = .ok b := by
  simp [ordered, isMissing_of_isWritable hv, isMissing_of_isWritable hw]

/-- A comparison of two values has an answer, unless the second is searched and no text. -/
lemma Value.relates_of_isWritable {v w : Value} (r : Relation) (hv : v.isWritable = true)
    (hw : w.isWritable = true)
    (hr : [Relation.contained, .notContained].contains r = true → ∃ s safe, w = .text s safe) :
    ∃ b, v.relates r w = .ok b := by
  cases r with
  | equal => exact ⟨_, rfl⟩
  | notEqual => exact ⟨_, rfl⟩
  | less => exact ordered_of_isWritable hv hw (· == .lt)
  | lessEqual => exact ordered_of_isWritable hv hw (· != .gt)
  | greater => exact ordered_of_isWritable hv hw (· == .gt)
  | greaterEqual => exact ordered_of_isWritable hv hw (· != .lt)
  | contained =>
    obtain ⟨s, safe, rfl⟩ := hr rfl
    exact ⟨_, rfl⟩
  | notContained =>
    obtain ⟨s, safe, rfl⟩ := hr rfl
    exact ⟨_, rfl⟩

/-! ### Actions that only answer -/

/-- The action answers `a` and leaves the machine as it is. -/
def Eval.Yields {α : Type} (x : Eval α) (m : Machine) (a : α) : Prop := x.run m = .ok (a, m)

namespace Eval.Yields

variable {α β : Type} {m : Machine}

lemma pure (a : α) : Yields (Pure.pure a : Eval α) m a := rfl

lemma run_bind {x : Eval α} {a : α} (hx : Yields x m a) (f : α → Eval β) :
    (x >>= f).run m = (f a).run m := by
  rw [StateT.run_bind, hx]
  rfl

lemma bind {x : Eval α} {f : α → Eval β} {a : α} {b : β} (hx : Yields x m a)
    (hf : Yields (f a) m b) : Yields (x >>= f) m b :=
  (hx.run_bind f).trans hf

lemma lift {x : Answer α} {a : α} (h : x = .ok a) : Yields (liftM x : Eval α) m a := by
  subst h
  rfl

lemma get : Yields get m m := rfl

lemma lookup? {name : String} {v? : Option Value} (h : m.lookup? name = v?) :
    Yields (Eval.lookup? name) m v? := h ▸ rfl

lemma opened {v : Value} (h : v.isWritable = true) : Yields (Eval.opened v) m v := by
  cases v <;> first | rfl | cases h

end Eval.Yields

/-- The machine after more text has been written. -/
def Machine.wrote (m : Machine) (s : String) : Machine := { m with out := m.out ++ s }

@[simp] lemma Machine.wrote_out (m : Machine) (s : String) : (m.wrote s).out = m.out ++ s := rfl
@[simp] lemma Machine.wrote_escaping (m : Machine) (s : String) :
    (m.wrote s).escaping = m.escaping := rfl
@[simp] lemma Machine.lookup?_wrote (m : Machine) (s n : String) :
    (m.wrote s).lookup? n = m.lookup? n := rfl

lemma Eval.run_emit {v : Value} (h : v.isWritable = true) (m : Machine) :
    (Eval.emit v).run m =
      .ok ((), m.wrote (if m.escaping then v.escapedText else v.toText)) := by
  rw [Eval.emit, (Yields.opened h).run_bind]
  simp only [Value.isMissing_of_isWritable h]
  rfl

section

variable (perform : Task → Eval Unit) {m : Machine}

lemma yields_var {name : String} {v : Value} (h : m.lookup? name = some v) :
    ((Expr.var name).eval perform).Yields m v := by
  rw [Expr.eval]
  exact (Eval.Yields.lookup? h).bind (.pure _)

lemma yields_noArguments : (evalArguments perform []).Yields m {} := by
  rw [evalArguments, evalPositional, evalNamed]
  exact (Eval.Yields.pure []).bind ((Eval.Yields.pure []).bind (.pure _))

/-- A filter without arguments answers what it makes of its target. -/
lemma run_filter {name : String} {target : Expr} {v : Value}
    (ht : (target.eval perform).Yields m v) (hv : v.isWritable = true) :
    ((Expr.filter name (some target) []).eval perform).run m =
      (liftM (Value.applyFilter 1 name v {}) : Eval Value).run m := by
  have ht' : (evalOption perform m.piped (some target)).Yields m v := by
    rw [evalOption]
    exact ht
  rw [Expr.eval, Eval.Yields.get.run_bind, ht'.run_bind, (Eval.Yields.opened hv).run_bind,
    (yields_noArguments perform).run_bind]
  rfl

lemma run_execAll_copy (c : String) (ss : List Statement) :
    (execAll perform (.copy c :: ss)).run m =
      (execAll perform ss).run (m.wrote c) := by
  rw [execAll, Statement.exec]
  rfl

lemma run_execAll_emit {e : Expr} {v : Value} (he : (e.eval perform).Yields m v)
    (hv : v.isWritable = true) (ss : List Statement) :
    (execAll perform (.emit e :: ss)).run m =
      (execAll perform ss).run (m.wrote (if m.escaping then v.escapedText else v.toText)) := by
  rw [execAll, Statement.exec, StateT.run_bind, he.run_bind, Eval.run_emit hv]
  rfl

lemma run_execAll_branch {condition : Expr} {v : Value}
    (hc : (condition.eval perform).Yields m v) (hv : v.isWritable = true)
    (yes no ss : List Statement) :
    (execAll perform (.branch condition yes no :: ss)).run m =
      ((if v.isTrue then execAll perform yes else execAll perform no) >>=
        fun _ => execAll perform ss).run m := by
  rw [execAll, Statement.exec, StateT.run_bind, hc.run_bind,
    (Eval.Yields.lift (Value.truth_of_isWritable hv)).run_bind, StateT.run_bind]

lemma run_execAll_emit_error {e : Expr} {c : Cause} (he : (e.eval perform).run m = .error c)
    (ss : List Statement) : (execAll perform (.emit e :: ss)).run m = .error c := by
  rw [execAll, Statement.exec, StateT.run_bind, StateT.run_bind, he]
  rfl

end

/-! ### Values of total expressions -/

/-- The name stands for a text. -/
def Machine.HasText (m : Machine) (name : String) : Prop :=
  ∃ s safe, m.lookup? name = some (.text s safe)

section

variable (perform : Task → Eval Unit) {m : Machine}

lemma Eval.Yields.branch {α : Type} {x : Eval Value} {f : Bool → Eval α} {v : Value} {a : α}
    (hx : Yields x m v) (hv : v.isWritable = true) (hf : Yields (f v.isTrue) m a) :
    Yields (do f (← (← x).truth)) m a :=
  hx.bind ((Yields.lift (Value.truth_of_isWritable hv)).bind hf)

/-- A text that its form promises can stand wherever a value can. -/
lemma Expr.isTotal_of_isText {e : Expr} (h : e.isText = true) : e.isTotal = true := by
  match e with
  | .literal _ => rfl
  | .var _ => exact h
  | .binary .join a b => simpa [isText, isTotal] using h
  | .choose condition yes (some no) =>
    simp only [isText, Bool.and_eq_true] at h
    simp [isTotal, isTotalOption, h.1.1, isTotal_of_isText h.1.2, isTotal_of_isText h.2]
  | .filter name (some target) [] => simpa [isText, isTotal] using h

lemma yields_join {a b : Expr} {v w : Value} (hv : v.isWritable = true)
    (ha : (a.eval perform).Yields m v) (hw : w.isWritable = true)
    (hb : (b.eval perform).Yields m w) :
    ((Expr.binary .join a b).eval perform).Yields m (.ofText (v.toText ++ w.toText)) := by
  rw [Expr.eval]
  · exact ha.bind ((Eval.Yields.opened hv).bind (hb.bind ((Eval.Yields.opened hw).bind
      (.lift rfl))))
  · simp
  · simp

lemma yields_textFilter {name : String} {target : Expr} {s : String} {safe : Bool}
    (h : textFilters.contains name = true) (hs : (target.eval perform).Yields m (.text s safe)) :
    ∃ t safe', ((Expr.filter name (some target) []).eval perform).Yields m (.text t safe') := by
  obtain ⟨t, safe', ht⟩ := Value.applyFilter_text h s safe
  exact ⟨t, safe', (run_filter perform hs rfl).trans (Eval.Yields.lift ht)⟩

mutual

lemma Expr.yields_of_isText {e : Expr} (h : e.isText = true)
    (hm : ∀ n ∈ e.names, m.HasText n) :
    ∃ s safe, (e.eval perform).Yields m (.text s safe) := by
  match e with
  | .literal (.text s) =>
    rw [Expr.eval]
    exact ⟨s, false, .pure _⟩
  | .var name =>
    obtain ⟨s, safe, hs⟩ := hm name (by simp [Expr.names])
    exact ⟨s, safe, yields_var perform hs⟩
  | .binary .join a b =>
    simp only [Expr.isText, Bool.and_eq_true] at h
    obtain ⟨v, hv, ha⟩ := a.yields_of_isTotal h.1 fun n hn => hm n (by simp [Expr.names, hn])
    obtain ⟨w, hw, hb⟩ := b.yields_of_isTotal h.2 fun n hn => hm n (by simp [Expr.names, hn])
    exact ⟨_, _, yields_join perform hv ha hw hb⟩
  | .choose condition yes (some no) =>
    simp only [Expr.isText, Bool.and_eq_true] at h
    obtain ⟨v, hv, hc⟩ :=
      condition.yields_of_isTotal h.1.1 fun n hn => hm n (by simp [Expr.names, hn])
    obtain ⟨s, sf, hs⟩ := yes.yields_of_isText h.1.2 fun n hn => hm n (by simp [Expr.names, hn])
    obtain ⟨t, tf, ht⟩ :=
      no.yields_of_isText h.2 fun n hn => hm n (by simp [Expr.names, optionNames, hn])
    rw [Expr.eval]
    cases hb : v.isTrue with
    | true => exact ⟨s, sf, .branch hc hv (by simpa [hb] using hs)⟩
    | false => exact ⟨t, tf, .branch hc hv (by simpa [hb, evalOption] using ht)⟩
  | .filter name (some target) [] =>
    simp only [Expr.isText, Bool.and_eq_true] at h
    obtain ⟨s, safe, hs⟩ :=
      target.yields_of_isText h.2 fun n hn => hm n (by simp [Expr.names, optionNames, hn])
    exact yields_textFilter perform h.1 hs

/-- **Total expressions have values**: where its names stand for texts, the expression is
evaluated without an error and without an effect. -/
lemma Expr.yields_of_isTotal {e : Expr} (h : e.isTotal = true)
    (hm : ∀ n ∈ e.names, m.HasText n) :
    ∃ v, v.isWritable = true ∧ (e.eval perform).Yields m v := by
  match e with
  | .literal l =>
    rw [Expr.eval]
    refine ⟨l.value, ?_, .pure _⟩
    cases l <;> rfl
  | .var name =>
    obtain ⟨s, safe, hs⟩ := hm name (by simp [Expr.names])
    exact ⟨_, rfl, yields_var perform hs⟩
  | .not e =>
    obtain ⟨v, hv, he⟩ := e.yields_of_isTotal h hm
    rw [Expr.eval]
    exact ⟨.bool !v.isTrue, rfl, .branch he hv (.pure _)⟩
  | .binary .and a b =>
    simp only [Expr.isTotal, Bool.and_eq_true] at h
    obtain ⟨v, hv, ha⟩ := a.yields_of_isTotal h.1.2 fun n hn => hm n (by simp [Expr.names, hn])
    obtain ⟨w, hw, hb⟩ := b.yields_of_isTotal h.2 fun n hn => hm n (by simp [Expr.names, hn])
    rw [Expr.eval]
    cases ht : v.isTrue with
    | true =>
      exact ⟨w, hw, ha.bind ((Eval.Yields.lift (Value.truth_of_isWritable hv)).bind
        (by simpa [ht] using hb))⟩
    | false =>
      exact ⟨v, hv, ha.bind ((Eval.Yields.lift (Value.truth_of_isWritable hv)).bind
        (by simpa [ht] using .pure v))⟩
  | .binary .or a b =>
    simp only [Expr.isTotal, Bool.and_eq_true] at h
    obtain ⟨v, hv, ha⟩ := a.yields_of_isTotal h.1.2 fun n hn => hm n (by simp [Expr.names, hn])
    obtain ⟨w, hw, hb⟩ := b.yields_of_isTotal h.2 fun n hn => hm n (by simp [Expr.names, hn])
    rw [Expr.eval]
    cases ht : v.isTrue with
    | true =>
      exact ⟨v, hv, ha.bind ((Eval.Yields.lift (Value.truth_of_isWritable hv)).bind
        (by simpa [ht] using .pure v))⟩
    | false =>
      exact ⟨w, hw, ha.bind ((Eval.Yields.lift (Value.truth_of_isWritable hv)).bind
        (by simpa [ht] using hb))⟩
  | .binary .join a b =>
    simp only [Expr.isTotal, Bool.and_eq_true] at h
    obtain ⟨v, hv, ha⟩ := a.yields_of_isTotal h.1.2 fun n hn => hm n (by simp [Expr.names, hn])
    obtain ⟨w, hw, hb⟩ := b.yields_of_isTotal h.2 fun n hn => hm n (by simp [Expr.names, hn])
    exact ⟨_, rfl, yields_join perform hv ha hw hb⟩
  | .compare first rest =>
    simp only [Expr.isTotal, Bool.and_eq_true] at h
    obtain ⟨v, hv, hf⟩ := first.yields_of_isTotal h.1 fun n hn => hm n (by simp [Expr.names, hn])
    obtain ⟨b, hb⟩ := yields_comparisons h.2 hv fun n hn => hm n (by simp [Expr.names, hn])
    rw [Expr.eval]
    exact ⟨.bool b, rfl, hf.bind hb⟩
  | .choose condition yes no? =>
    simp only [Expr.isTotal, Bool.and_eq_true] at h
    obtain ⟨v, hv, hc⟩ :=
      condition.yields_of_isTotal h.1.1 fun n hn => hm n (by simp [Expr.names, hn])
    obtain ⟨w, hw, hyes⟩ := yes.yields_of_isTotal h.1.2 fun n hn => hm n (by simp [Expr.names, hn])
    obtain ⟨x, hx, hno⟩ := yields_option h.2 fun n hn => hm n (by simp [Expr.names, hn])
    rw [Expr.eval]
    cases ht : v.isTrue with
    | true => exact ⟨w, hw, .branch hc hv (by simpa [ht] using hyes)⟩
    | false => exact ⟨x, hx, .branch hc hv (by simpa [ht] using hno)⟩
  | .filter name (some target) [] =>
    simp only [Expr.isTotal, Bool.and_eq_true] at h
    obtain ⟨s, safe, hs⟩ :=
      target.yields_of_isText h.2 fun n hn => hm n (by simp [Expr.names, optionNames, hn])
    obtain ⟨t, safe', ht⟩ := yields_textFilter perform h.1 hs
    exact ⟨_, rfl, ht⟩
  | .test name target [] =>
    simp only [Expr.isTotal, Bool.and_eq_true] at h
    obtain ⟨v, hv, ht⟩ := target.yields_of_isTotal h.2 fun n hn => hm n (by simp [Expr.names, hn])
    obtain ⟨b, hb⟩ := Value.test_plain h.1 v
    rw [Expr.eval]
    exact ⟨.bool b, rfl, ht.bind ((Eval.Yields.opened hv).bind
      ((yields_noArguments perform).bind ((Eval.Yields.lift hb).bind (.pure _))))⟩
  | .list items =>
    obtain ⟨vs, hvs⟩ := yields_all h hm
    rw [Expr.eval]
    exact ⟨.list vs, rfl, hvs.bind (.pure _)⟩
  | .map entries =>
    obtain ⟨vs, hvs⟩ := yields_entries h hm
    rw [Expr.eval]
    exact ⟨.mapOf vs, rfl, hvs.bind (.pure _)⟩

lemma yields_option {e? : Option Expr} (h : isTotalOption e? = true)
    (hm : ∀ n ∈ optionNames e?, m.HasText n) :
    ∃ v, v.isWritable = true ∧ (evalOption perform (.undefined true) e?).Yields m v := by
  match e? with
  | none =>
    rw [evalOption]
    exact ⟨_, rfl, .pure _⟩
  | some e =>
    rw [evalOption]
    exact e.yields_of_isTotal h hm

lemma yields_all {es : List Expr} (h : allTotal es = true)
    (hm : ∀ n ∈ allNames es, m.HasText n) : ∃ vs, (evalAll perform es).Yields m vs := by
  match es with
  | [] =>
    rw [evalAll]
    exact ⟨[], .pure _⟩
  | e :: es =>
    simp only [allTotal, Bool.and_eq_true] at h
    obtain ⟨v, -, hv⟩ := e.yields_of_isTotal h.1 fun n hn => hm n (by simp [allNames, hn])
    obtain ⟨vs, hvs⟩ := yields_all h.2 fun n hn => hm n (by simp [allNames, hn])
    rw [evalAll]
    exact ⟨v :: vs, hv.bind (hvs.bind (.pure _))⟩

lemma yields_comparisons {v : Value} {es : List (Relation × Expr)}
    (h : compareTotally es = true) (hv : v.isWritable = true)
    (hm : ∀ n ∈ comparisonNames es, m.HasText n) :
    ∃ b, (evalComparisons perform v es).Yields m (.bool b) := by
  match es with
  | [] =>
    rw [evalComparisons]
    exact ⟨true, .pure _⟩
  | (r, e) :: es =>
    simp only [compareTotally, Bool.and_eq_true] at h
    have hne : ∀ n ∈ e.names, m.HasText n := fun n hn => hm n (by simp [comparisonNames, hn])
    have hnes : ∀ n ∈ comparisonNames es, m.HasText n :=
      fun n hn => hm n (by simp [comparisonNames, hn])
    have he : ∃ w, w.isWritable = true ∧ (e.eval perform).Yields m w ∧
        ([Relation.contained, .notContained].contains r = true → ∃ s safe, w = .text s safe) := by
      split at h
      · obtain ⟨s, safe, hs⟩ := e.yields_of_isText h.1 hne
        exact ⟨_, rfl, hs, fun _ => ⟨s, safe, rfl⟩⟩
      · next hr =>
        obtain ⟨w, hw, hw'⟩ := e.yields_of_isTotal h.1 hne
        exact ⟨w, hw, hw', fun h => absurd h hr⟩
    obtain ⟨w, hw, hew, hr⟩ := he
    obtain ⟨b, hb⟩ := Value.relates_of_isWritable r hv hw hr
    obtain ⟨c, hc⟩ := yields_comparisons h.2 hw hnes
    have hstep : ∀ x, Eval.Yields (if b = true then evalComparisons perform w es
        else return .bool false) m x → (evalComparisons perform v ((r, e) :: es)).Yields m x := by
      intro x hx
      rw [evalComparisons]
      exact hew.bind ((Eval.Yields.opened hv).bind ((Eval.Yields.opened hw).bind
        ((Eval.Yields.lift hb).bind hx)))
    cases b with
    | true => exact ⟨c, hstep _ hc⟩
    | false => exact ⟨false, hstep _ (.pure _)⟩

lemma yields_entries {es : List (Expr × Expr)} (h : entriesTotal es = true)
    (hm : ∀ n ∈ entryNames es, m.HasText n) : ∃ vs, (evalEntries perform es).Yields m vs := by
  match es with
  | [] =>
    rw [evalEntries]
    exact ⟨[], .pure _⟩
  | (k, v) :: es =>
    simp only [entriesTotal, Bool.and_eq_true] at h
    obtain ⟨a, -, ha⟩ := k.yields_of_isTotal h.1.1 fun n hn => hm n (by simp [entryNames, hn])
    obtain ⟨b, -, hb⟩ := v.yields_of_isTotal h.1.2 fun n hn => hm n (by simp [entryNames, hn])
    obtain ⟨vs, hvs⟩ := yields_entries h.2 fun n hn => hm n (by simp [entryNames, hn])
    rw [evalEntries]
    exact ⟨(a, b) :: vs, ha.bind (hb.bind (hvs.bind (.pure _)))⟩

end

end

/-! ### Names of total texts -/

mutual

/-- The names of a total expression are found by a reading of it, and `self` is none of them. -/
lemma Expr.knows_use {e : Expr} (h : e.isTotal = true) (u : Usage) {n : String}
    (hn : n ∈ e.names) : n ≠ "self" ∧ (e.use u).Knows n := by
  match e with
  | .literal _ => simp [Expr.names] at hn
  | .var name =>
    rw [Expr.names, List.mem_singleton] at hn
    subst hn
    exact ⟨by simpa [Expr.isTotal] using h, u.knows_read n⟩
  | .not e => exact e.knows_use h u hn
  | .binary op a b =>
    simp only [Expr.isTotal, Bool.and_eq_true] at h
    rcases List.mem_append.1 hn with hn | hn
    · exact (a.knows_use h.1.2 u hn).imp_right (b.extends_use _).knows
    · exact b.knows_use h.2 _ hn
  | .compare first rest =>
    simp only [Expr.isTotal, Bool.and_eq_true] at h
    rcases List.mem_append.1 hn with hn | hn
    · exact (first.knows_use h.1 u hn).imp_right (extends_useComparisons _ rest).knows
    · exact knows_useComparisons h.2 _ hn
  | .choose condition yes no? =>
    simp only [Expr.isTotal, Bool.and_eq_true] at h
    rw [Expr.names, List.mem_append, List.mem_append] at hn
    rcases hn with (hn | hn) | hn
    · exact (condition.knows_use h.1.1 u hn).imp_right
        ((yes.extends_use _).trans (extends_useOption _ no?)).knows
    · exact (yes.knows_use h.1.2 _ hn).imp_right (extends_useOption _ no?).knows
    · exact knows_useOption h.2 _ hn
  | .filter name (some target) [] =>
    simp only [Expr.isTotal, Bool.and_eq_true] at h
    have hn' : n ∈ target.names := by simpa [Expr.names, optionNames, argumentNames] using hn
    exact target.knows_use (Expr.isTotal_of_isText h.2) u hn'
  | .test name target [] =>
    simp only [Expr.isTotal, Bool.and_eq_true] at h
    have hn' : n ∈ target.names := by simpa [Expr.names, argumentNames] using hn
    exact target.knows_use h.2 u hn'
  | .list items => exact knows_useAll h u hn
  | .map entries => exact knows_useEntries h u hn

lemma knows_useOption {e? : Option Expr} (h : isTotalOption e? = true) (u : Usage) {n : String}
    (hn : n ∈ optionNames e?) : n ≠ "self" ∧ (useOption u e?).Knows n := by
  match e? with
  | none => simp [optionNames] at hn
  | some e => exact e.knows_use h u hn

lemma knows_useAll {es : List Expr} (h : allTotal es = true) (u : Usage) {n : String}
    (hn : n ∈ allNames es) : n ≠ "self" ∧ (useAll u es).Knows n := by
  match es with
  | [] => simp [allNames] at hn
  | e :: es =>
    simp only [allTotal, Bool.and_eq_true] at h
    rcases List.mem_append.1 hn with hn | hn
    · exact (e.knows_use h.1 u hn).imp_right (extends_useAll _ es).knows
    · exact knows_useAll h.2 _ hn

lemma knows_useComparisons {es : List (Relation × Expr)} (h : compareTotally es = true)
    (u : Usage) {n : String} (hn : n ∈ comparisonNames es) :
    n ≠ "self" ∧ (useComparisons u es).Knows n := by
  match es with
  | [] => simp [comparisonNames] at hn
  | (r, e) :: es =>
    simp only [compareTotally, Bool.and_eq_true] at h
    have he : e.isTotal = true := by
      have h1 := h.1
      split at h1
      · exact Expr.isTotal_of_isText h1
      · exact h1
    rcases List.mem_append.1 hn with hn | hn
    · exact (e.knows_use he u hn).imp_right (extends_useComparisons _ es).knows
    · exact knows_useComparisons h.2 _ hn

lemma knows_useEntries {es : List (Expr × Expr)} (h : entriesTotal es = true) (u : Usage)
    {n : String} (hn : n ∈ entryNames es) : n ≠ "self" ∧ (useEntries u es).Knows n := by
  match es with
  | [] => simp [entryNames] at hn
  | (k, v) :: es =>
    simp only [entriesTotal, Bool.and_eq_true] at h
    rw [entryNames, List.mem_append, List.mem_append] at hn
    rcases hn with (hn | hn) | hn
    · exact (k.knows_use h.1.1 u hn).imp_right
        ((v.extends_use _).trans (extends_useEntries _ es)).knows
    · exact (v.knows_use h.1.2 _ hn).imp_right (extends_useEntries _ es).knows
    · exact knows_useEntries h.2 _ hn

end

mutual

/-- A total statement assigns in the innermost scope alone. -/
lemma Statement.grows_use {s : Statement} (h : s.isTotal = true) (u : Usage) :
    u.Grows (s.use u) := by
  match s with
  | .copy _ => exact .refl u
  | .emit e => exact (e.extends_use u).grows
  | .branch condition yes no =>
    simp only [Statement.isTotal, Bool.and_eq_true] at h
    have hyes := grows_useStatements h.1.2 (condition.use u).enter
    have hno := grows_useStatements h.2 (useStatements (condition.use u).enter yes).leave.enter
    exact (((condition.extends_use u).trans hyes.leave).trans hno.leave).grows
  | .assign (.var name) value =>
    exact (u.grows_assign name).trans (value.extends_use _).grows

lemma grows_useStatements {ss : List Statement} (h : statementsTotal ss = true) (u : Usage) :
    u.Grows (useStatements u ss) := by
  match ss with
  | [] => exact .refl u
  | s :: ss =>
    simp only [statementsTotal, Bool.and_eq_true] at h
    exact (s.grows_use h.1 u).trans (grows_useStatements h.2 _)

end

/-! ### Effects of total texts -/

namespace Machine

variable {m : Machine}

lemma lookup?_store_self (h : m.frames ≠ []) (n : String) (v : Value) :
    (m.store n v).lookup? n = some v := by
  obtain ⟨f, fs, hf⟩ := List.exists_cons_of_ne_nil h
  simp [store, lookup?, inFrame?, hf, Names.lookup_insert_self]

lemma lookup?_store_of_ne (h : m.closures = []) {n k : String} (v : Value) (hk : k ≠ n) :
    (m.store n v).lookup? k = m.lookup? k := by
  cases hf : m.frames with
  | nil => simp [store, hf]
  | cons f fs =>
    have hc : (m.store n v).closures = m.closures := by
      simp only [store, hf, h]
      split <;> simp
    have hfs : (m.store n v).frames = { f with names := f.names.insert n v } :: fs := by
      simp only [store, hf]
    simp [lookup?, inFrame?, hf, hfs, hc, List.findSome?_cons,
      Names.lookup_insert_of_ne f.names v hk]

/-- What a total text needs where a usage has arrived: frames to assign in, no routine to tell, and
texts behind the names that are given or assigned. -/
structure Meets (m : Machine) (given : List String) (u : Usage) : Prop where
  frames : m.frames ≠ []
  closures : m.closures = []
  texts : ∀ n, n ≠ "self" → n ∈ given ∨ u.Assigns n → m.HasText n

variable {given : List String} {u v : Usage}

lemma Meets.mono (h : m.Meets given u) (hv : ∀ n, v.Assigns n → u.Assigns n) :
    m.Meets given v :=
  ⟨h.frames, h.closures, fun n hn hk => h.texts n hn (hk.imp_right (hv n))⟩

/-- Writing takes no name away. -/
lemma Meets.wrote (h : m.Meets given u) (s : String) : (m.wrote s).Meets given u :=
  ⟨h.frames, h.closures, h.texts⟩

/-- Assigning a text keeps texts behind all names. -/
lemma Meets.store (h : m.Meets given u) (n s : String) (safe : Bool) :
    (m.store n (.text s safe)).Meets given (u.assign n) where
  frames := by
    obtain ⟨f, fs, hf⟩ := List.exists_cons_of_ne_nil h.frames
    simp [Machine.store, hf]
  closures := by
    obtain ⟨f, fs, hf⟩ := List.exists_cons_of_ne_nil h.frames
    simp only [Machine.store, hf, h.closures]
    split <;> simp
  texts k hk hgiven := by
    by_cases hkn : k = n
    · subst hkn
      exact ⟨s, safe, lookup?_store_self h.frames k _⟩
    · obtain ⟨t, safe', ht⟩ := h.texts k hk
        (hgiven.imp_right fun ha => (Usage.assigns_assign.1 ha).resolve_left hkn)
      exact ⟨t, safe', (lookup?_store_of_ne h.closures _ hkn).trans ht⟩

/-- The names of a total expression stand for texts, if those that are free are given. -/
lemma Meets.hasText (h : m.Meets given u) {e : Expr} (he : e.isTotal = true)
    (hfree : ∀ n ∈ (e.use u).free, n ∈ given) : ∀ n ∈ e.names, m.HasText n := by
  intro n hn
  obtain ⟨hself, hk⟩ := e.knows_use he u hn
  refine h.texts n hself (hk.symm.imp (hfree n) ?_)
  exact (e.extends_use u).assigns_iff.1

end Machine

section

variable (perform : Task → Eval Unit) {given : List String}

mutual

/-- **Total statements run**: the names that they find neither given nor assigned decide. -/
lemma Statement.exec_of_isTotal {s : Statement} (h : s.isTotal = true) {u : Usage} {m : Machine}
    (hfree : ∀ n ∈ (s.use u).free, n ∈ given) (hm : m.Meets given u) :
    ∃ m', (s.exec perform).run m = .ok ((), m') ∧ m'.Meets given (s.use u) := by
  match s with
  | .copy t =>
    rw [Statement.exec]
    exact ⟨_, rfl, hm.wrote t⟩
  | .emit e =>
    obtain ⟨v, hv, he⟩ := e.yields_of_isTotal perform h (hm.hasText h hfree)
    rw [Statement.exec, he.run_bind, Eval.run_emit hv]
    exact ⟨_, rfl, (hm.wrote _).mono fun n => (e.extends_use u).assigns_iff.1⟩
  | .branch condition yes no =>
    simp only [Statement.isTotal, Bool.and_eq_true] at h
    have hc := condition.extends_use u
    have hyes := grows_useStatements h.1.2 (condition.use u).enter
    have hno := grows_useStatements h.2 (useStatements (condition.use u).enter yes).leave.enter
    obtain ⟨v, hv, he⟩ := condition.yields_of_isTotal perform h.1.1
      (hm.hasText h.1.1 fun n hn => hfree n (hno.leave.free (hyes.leave.free hn)))
    -- whichever branch runs, what it assigns is not relied on behind it
    have hback : ∀ {m' : Machine} {w : Usage}, m'.Meets given w → (∀ n, u.Assigns n → w.Assigns n) →
        m'.Meets given ((Statement.branch condition yes no).use u) := fun hm' hw =>
      hm'.mono fun n hn => hw n ((hc.trans hyes.leave |>.trans hno.leave).assigns_iff.1 hn)
    rw [Statement.exec, he.run_bind, (Eval.Yields.lift (Value.truth_of_isWritable hv)).run_bind]
    cases hb : v.isTrue with
    | true =>
      obtain ⟨m', hrun, hm'⟩ := execAll_of_statementsTotal h.1.2
        (fun n hn => hfree n (hno.leave.free hn))
        (hm.mono fun n hn => hc.assigns_iff.1 (Usage.assigns_enter.1 hn))
      exact ⟨m', hrun, hback hm' fun n hn =>
        hyes.assigns (Usage.assigns_enter.2 (hc.assigns_iff.2 hn))⟩
    | false =>
      have hu := hc.trans hyes.leave
      obtain ⟨m', hrun, hm'⟩ := execAll_of_statementsTotal h.2 hfree
        (hm.mono fun n hn => hu.assigns_iff.1 (Usage.assigns_enter.1 hn))
      exact ⟨m', hrun, hback hm' fun n hn =>
        hno.assigns (Usage.assigns_enter.2 (hu.assigns_iff.2 hn))⟩
  | .assign (.var name) value =>
    simp only [Statement.isTotal, Bool.and_eq_true] at h
    -- the name itself is assigned before the value is read, so the value must do without it
    have hnames : ∀ n ∈ value.names, m.HasText n := by
      intro n hn
      have hne : n ≠ name := by
        rintro rfl
        simp [hn] at h
      obtain ⟨hself, hk⟩ := value.knows_use (Expr.isTotal_of_isText h.1) (u.assign name) hn
      refine hm.texts n hself (hk.symm.imp (hfree n) fun ha => ?_)
      exact (Usage.assigns_assign.1 ((value.extends_use _).assigns_iff.1 ha)).resolve_left hne
    obtain ⟨t, safe, ht⟩ := value.yields_of_isText perform h.1 hnames
    rw [Statement.exec, ht.run_bind, Expr.set]
    exact ⟨_, rfl, (hm.store name t safe).mono fun n => (value.extends_use _).assigns_iff.1⟩

lemma execAll_of_statementsTotal {ss : List Statement} (h : statementsTotal ss = true)
    {u : Usage} {m : Machine} (hfree : ∀ n ∈ (useStatements u ss).free, n ∈ given)
    (hm : m.Meets given u) :
    ∃ m', (execAll perform ss).run m = .ok ((), m') ∧ m'.Meets given (useStatements u ss) := by
  match ss with
  | [] =>
    rw [execAll]
    exact ⟨m, rfl, hm⟩
  | s :: ss =>
    simp only [statementsTotal, Bool.and_eq_true] at h
    have hs : ∀ n ∈ (s.use u).free, n ∈ given :=
      fun n hn => hfree n ((grows_useStatements h.2 _).free hn)
    obtain ⟨m₁, hrun, hm₁⟩ := s.exec_of_isTotal h.1 hs hm
    obtain ⟨m₂, hrun', hm₂⟩ := execAll_of_statementsTotal h.2 hfree hm₁
    refine ⟨m₂, ?_, hm₂⟩
    rw [execAll, StateT.run_bind, hrun]
    exact hrun'

end

end

/-! ### Rendering -/

lemma lookup_map_ofText (es : List (String × String)) (n : String) :
    (es.map fun (k, v) => (k, Value.ofText v)).lookup n = (es.lookup n).map .ofText := by
  induction es with
  | nil => rfl
  | cons e es ih =>
    obtain ⟨k, v⟩ := e
    cases h : n == k <;> simp [List.lookup_cons, h, ih]

/-- At the start, the values of the placeholders are what names stand for. -/
lemma Machine.lookup?_start {values : Labels} {n t : String} (h : values.get? n = some t)
    (ss : List Statement) : (Machine.start values ss).lookup? n = some (.ofText t) := by
  simp only [Labels.get?] at h
  simp [lookup?, start, inFrame?, lookup_map_ofText, h]

/-- **Total texts render**: where all free names of a total text have values, rendering it
succeeds. -/
theorem renderStatements_of_isTotal {ss : List Statement} {values : Labels}
    (h : statementsTotal ss = true) (hfree : ∀ n ∈ freeNames ss, (values.get? n).isSome) :
    ∃ t, renderStatements ss values = .ok t := by
  have hm : (Machine.start values ss).Meets (freeNames ss) { scopes := [["self"]] } := by
    refine ⟨by simp [Machine.start], rfl, fun n hself hn => ?_⟩
    rcases hn with hn | ⟨scope, hs, hn⟩
    · obtain ⟨t, ht⟩ := Option.isSome_iff_exists.1 (hfree n hn)
      exact ⟨t, false, Machine.lookup?_start ht ss⟩
    · rw [List.mem_singleton] at hs
      subst hs
      exact absurd (List.mem_singleton.1 hn) hself
  obtain ⟨m', hrun, -⟩ :=
    execAll_of_statementsTotal (perform (maxDepth + 2)) h (fun n hn => hn) hm
  rw [renderStatements, hrun]
  exact ⟨m'.out, rfl⟩

end BurnRate.Expression
