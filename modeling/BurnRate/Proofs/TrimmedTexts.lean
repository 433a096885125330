import BurnRate.Proofs.BlindTexts
import BurnRate.Proofs.SurroundedTexts
import BurnRate.Slo.Fault
import Mathlib.Data.Fintype.EquivFin

/-!
White space around an expression text has no influence on what the text stands for.

An objective is checked with the texts as they are given and makes rules of the trimmed ones. Both
are refused for the same reason, and render to the same text but for white space around it. Only the
line that a refusal names is further down where lines are trimmed in front.
-/

namespace BurnRate

namespace Text

/-- A text is what is left of it when it is trimmed, with white space around. -/
lemma toList_eq_trim (s : String) :
    ∃ r : List Char, (∀ c ∈ r, isBlank c = true) ∧
      s.toList = s.toList.takeWhile isBlank ++ ((trim s).toList ++ r) := by
  refine ⟨((trimStart s.toList).reverse.takeWhile isBlank).reverse, fun c hc => ?_, ?_⟩
  · exact List.mem_takeWhile_imp (List.mem_reverse.1 hc)
  · rw [trim, String.toList_ofList, trimEnd, ← List.reverse_append,
      List.takeWhile_append_dropWhile, List.reverse_reverse, trimStart,
      List.takeWhile_append_dropWhile]

end Text

namespace Expression

/-! ### What is checked -/

lemma useStatements_copies (u : Usage) (ts : List Located) (ss : List Statement) :
    useStatements u (copies ts ++ ss) = useStatements u ss := by
  induction ts with
  | nil => rfl
  | cons t ts ih => exact ih

lemma useStatements_append_copies (u : Usage) (ts : List Located) (ss : List Statement) :
    useStatements u (ss ++ copies ts) = useStatements u ss := by
  induction ss generalizing u with
  | nil =>
    have hcopies := useStatements_copies u ts []
    simpa using hcopies
  | cons s ss ih =>
    rw [List.cons_append, useStatements, useStatements, ih]

lemma allBlocks_copies (ts : List Located) (ss : List Statement) :
    allBlocks (copies ts ++ ss) = allBlocks ss := by
  induction ts with
  | nil => rfl
  | cons t ts ih => exact ih

lemma allBlocks_append_copies (ts : List Located) (ss : List Statement) :
    allBlocks (ss ++ copies ts) = allBlocks ss := by
  induction ss with
  | nil =>
    have hcopies := allBlocks_copies ts []
    simpa using hcopies
  | cons s ss ih => rw [List.cons_append, allBlocks, allBlocks, ih]

variable {ss ss' : List Statement}

lemma Widened.freeNames_eq (h : Widened ss ss') : freeNames ss' = freeNames ss := by
  cases h with
  | @copied a b ts us ha hb h =>
    have hts (ts : List Located) : freeNames (copies ts) = [] :=
      congrArg Usage.free (useStatements_append_copies _ ts [])
    rw [hts, hts]
  | around core ha hb hbefore hbehind =>
    simp only [freeNames, useStatements_copies, useStatements_append_copies]

/-! ### What is rendered -/

lemma run_execAll_append (perform : Task → Eval Unit) (ss ts : List Statement) (m : Machine) :
    (execAll perform (ss ++ ts)).run m =
      (execAll perform ss).run m >>= fun p => (execAll perform ts).run p.2 := by
  induction ss generalizing m with
  | nil => simp [execAll]
  | cons s ss ih =>
    rw [List.cons_append, execAll, execAll, StateT.run_bind, StateT.run_bind, bind_assoc]
    congr 1
    funext p
    exact ih p.2

/-- What is copied in front and behind is written around what the statements between write. -/
lemma run_execAll_between (perform : Task → Eval Unit) (before behind : List Located)
    (core : List Statement) (m : Machine) :
    (execAll perform (copies before ++ (core ++ copies behind))).run m =
      ((execAll perform core).run (m.wrote (String.ofList (written before)))).map
        fun p => ((), p.2.wrote (String.ofList (written behind))) := by
  rw [run_execAll_append, run_execAll_copies]
  refine (run_execAll_append perform core _ _).trans ?_
  cases (execAll perform core).run _ with
  | error e => rfl
  | ok p => exact run_execAll_copies perform behind p.2

/-- There is a name that neither the statements nor the values have. -/
lemma exists_fresh (ss : List Statement) (values : Labels) :
    ∃ x, x ≠ "caller" ∧ x ∉ statementNames ss ∧ ∀ e ∈ values.entries, e.1 ≠ x := by
  obtain ⟨x, hx⟩ := Infinite.exists_notMem_finset
    ("caller" :: statementNames ss ++ values.entries.map Prod.fst).toFinset
  simp only [List.mem_toFinset, List.mem_append, List.mem_cons, List.mem_map, not_or] at hx
  exact ⟨x, hx.1.1, hx.1.2, fun e he heq => hx.2 ⟨e, he, heq⟩⟩

/-- What was written before stays in front of what statements write. -/
lemma out_execAll_wrote (core : List Statement) (values : Labels) (s t : String) :
    ((execAll (perform (maxDepth + 2)) core).run
        ((Machine.start values core).wrote (s ++ t))).map (fun p => p.2.out) =
      ((execAll (perform (maxDepth + 2)) core).run
        ((Machine.start values core).wrote t)).map fun p => s ++ p.2.out := by
  obtain ⟨x, hx, hcore, hvalues⟩ := exists_fresh core values
  have havoids := Machine.avoids_start (fun b hb => not_mem_of_mem_allBlocks hcore hb) values
  -- Nothing has the name, so its twin differs in what was written alone.
  have hnames : Names.twin x .nothing (values.entries.map fun e => (e.1, Value.ofText e.2)) =
      values.entries.map fun e => (e.1, Value.ofText e.2) := by
    refine Names.twin_of_not_mem fun _ hmem => ?_
    obtain ⟨e, he, rfl⟩ := List.mem_map.1 hmem
    exact hvalues e he
  have hstart : ((Machine.start values core).wrote t).twin x .nothing s =
      (Machine.start values core).wrote (s ++ t) := by
    simp [Machine.start, Machine.wrote, Machine.twin, Frame.twin, hnames]
  obtain ⟨htwin, -⟩ := blind_execAll hx (fun t => blind_perform hx _) hcore
    ((Machine.start values core).wrote t) ⟨havoids.blocks, havoids.routines, havoids.loops⟩
  rw [← hstart, htwin]
  cases (execAll (perform (maxDepth + 2)) core).run ((Machine.start values core).wrote t) with
  | error e => rfl
  | ok p => rfl

lemma renderStatements_between (before behind : List Located) (core : List Statement)
    (values : Labels) :
    renderStatements (copies before ++ (core ++ copies behind)) values =
      ((execAll (perform (maxDepth + 2)) core).run
        ((Machine.start values core).wrote (String.ofList (written before)))).map
          fun p => p.2.out ++ String.ofList (written behind) := by
  have hstart : Machine.start values (copies before ++ (core ++ copies behind)) =
      Machine.start values core := by
    simp only [Machine.start, allBlocks_copies, allBlocks_append_copies]
  rw [renderStatements, run_execAll_between, hstart]
  cases (execAll (perform (maxDepth + 2)) core).run _ with
  | error e => rfl
  | ok p => rfl

/-- The white space that is added is written around what was written without it. -/
lemma Widened.render (h : Widened ss ss') (values : Labels) :
    ∃ a b : List Char, (∀ c ∈ a, Text.isBlank c = true) ∧ (∀ c ∈ b, Text.isBlank c = true) ∧
      renderStatements ss' values = (renderStatements ss values).map
        fun t => String.ofList a ++ (t ++ String.ofList b) := by
  cases h with
  | @copied a b ts us ha hb h =>
    refine ⟨a, b, ha, hb, ?_⟩
    rw [renderStatements_copies, renderStatements_copies, h]
    simp [Except.map]
  | @around a b before before' behind behind' core ha hb hbefore hbehind =>
    have hout := out_execAll_wrote core values (String.ofList a) (String.ofList (written before))
    rw [← String.ofList_append, ← hbefore] at hout
    refine ⟨a, b, ha, hb, ?_⟩
    rw [renderStatements_between, renderStatements_between, hbehind]
    have hmap {α β γ : Type} (f : α → β) (g : β → γ) (x : Answer α) :
        x.map (fun p => g (f p)) = (x.map f).map g := by
      cases x <;> rfl
    rw [hmap _ (· ++ String.ofList (written behind ++ b)), hout, ← hmap, ← hmap]
    simp only [String.ofList_append, String.append_assoc]

lemma parse_trim (e : String) :
    ParsedAlike (Lexer.lineBreaks (e.toList.takeWhile Text.isBlank)) (parse (Text.trim e))
      (parse e) := by
  obtain ⟨r, hr, he⟩ := Text.toList_eq_trim e
  exact parse_surrounded (fun c hc => List.mem_takeWhile_imp hc) hr he

end Expression

/-! ### Fields of objectives -/

namespace Slo

/-- A check of a text finds the same as that of another whose lines start `k` further up. A refusal
names the line, but for a syntax error. -/
inductive FoundAlike (k : ℕ) : Except Fault Unit → Except Fault Unit → Prop
  | same {x : Except Fault Unit} : FoundAlike k x x
  | refused {field : String} {c : Expression.Cause} {l : ℕ} :
      FoundAlike k (.error (.flawedField field (.malformed ⟨c, l⟩)))
        (.error (.flawedField field (.malformed ⟨c, l + k⟩)))
  | malformed {field : String} {l l' : ℕ} :
      FoundAlike k (.error (.flawedField field (.malformed ⟨.syntaxError, l⟩)))
        (.error (.flawedField field (.malformed ⟨.syntaxError, l'⟩)))

lemma isAllBlank_trim (e : String) : Text.isAllBlank (Text.trim e) = Text.isAllBlank e := by
  obtain ⟨r, hr, he⟩ := Text.toList_eq_trim e
  have hfront : (e.toList.takeWhile Text.isBlank).all Text.isBlank = true :=
    List.all_eq_true.2 fun c hc => List.mem_takeWhile_imp hc
  have hall := congrArg (fun cs : List Char => cs.all Text.isBlank) he
  simp only [List.all_append, hfront, List.all_eq_true.2 hr, Bool.true_and, Bool.and_true] at hall
  exact hall.symm

lemma checkField_trim (field expr : String) (allowed required : List String) :
    FoundAlike (Expression.Lexer.lineBreaks (expr.toList.takeWhile Text.isBlank))
      (checkField field (Text.trim expr) allowed required)
      (checkField field expr allowed required) := by
  have hparse := Expression.parse_trim expr
  rw [checkField, checkField, isAllBlank_trim]
  split
  · exact .same
  simp only [Expression.checkAllowed, Expression.checkRequired, Expression.placeholders]
  generalize Expression.parse expr = x, Expression.parse (Text.trim expr) = x' at hparse ⊢
  cases hparse with
  | ok h =>
    simp only [h.freeNames_eq]
    exact .same
  | refused => exact .refused
  | malformed => exact .malformed

/-- A field that is accepted is accepted without the white space around it. -/
lemma checkField_trim_ok {field expr : String} {allowed required : List String}
    (h : checkField field expr allowed required = .ok ()) :
    checkField field (Text.trim expr) allowed required = .ok () := by
  have halike := checkField_trim field expr allowed required
  rw [h] at halike
  generalize checkField field (Text.trim expr) allowed required = x at halike ⊢
  cases halike with
  | same => rfl

end Slo

end BurnRate
