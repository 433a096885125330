import BurnRate.Proofs.ParserSteps

/-!
The parsers of expressions, step by step on two texts with other white space around them.

The numbers beside the steps that are allowed say how many of them pass before a token is taken.
-/

namespace BurnRate.Expression.Parser

/-- How far the operators of a level are from a value. -/
def Level.room : Level → ℕ
  | .disjunction => 9
  | .conjunction => 10
  | .negation => 11
  | .comparison => 12
  | .sum => 13
  | .join => 14
  | .product => 15
  | .power => 16
  | .unary => 17

/-- Expressions are parsed alike where the steps that are allowed are enough for the tokens. -/
structure ExprsAlike (k : ℕ) (r : String) (fuel fuel' : ℕ) : Prop where
  expr {n : ℕ} (h : 20 * n ≤ min fuel fuel' + 8) :
    Alike k r n 1 (Parser.expr fuel) (Parser.expr fuel')
  choice {n : ℕ} (h : 20 * n ≤ min fuel fuel' + 19) (e : Expr) :
    Alike k r n 0 (Parser.choice fuel e) (Parser.choice fuel' e)
  level {n : ℕ} (l : Level) (h : 20 * n ≤ min fuel fuel' + l.room) :
    Alike k r n 1 (Parser.level fuel l) (Parser.level fuel' l)
  comparisons {n : ℕ} (h : 20 * n ≤ min fuel fuel' + 19) (before : List (Relation × Expr)) :
    Alike k r n 0 (Parser.comparisons fuel before) (Parser.comparisons fuel' before)
  operands {n : ℕ} (h : 20 * n ≤ min fuel fuel' + 19) (l : Level) (left : Expr) :
    Alike k r n 0 (Parser.operands fuel l left) (Parser.operands fuel' l left)
  negation {n : ℕ} (h : 20 * n ≤ min fuel fuel' + 18) :
    Alike k r n 1 (Parser.negation fuel) (Parser.negation fuel')
  postfixes {n : ℕ} (h : 20 * n ≤ min fuel fuel' + 18) (e : Expr) :
    Alike k r n 0 (Parser.postfixes fuel e) (Parser.postfixes fuel' e)
  subscript {n : ℕ} (h : 20 * n ≤ min fuel fuel' + 7) (e : Expr) :
    Alike k r n 0 (Parser.subscript fuel e) (Parser.subscript fuel' e)
  filters {n : ℕ} (h : 20 * n ≤ min fuel fuel' + 19) (e : Expr) :
    Alike k r n 0 (Parser.filters fuel e) (Parser.filters fuel' e)
  arguments {n : ℕ} (h : 20 * n ≤ min fuel fuel' + 19) :
    Alike k r n 1 (Parser.arguments fuel) (Parser.arguments fuel')
  moreArguments {n : ℕ} (h : 20 * n ≤ min fuel fuel' + 7) (named : Bool)
    (before : List Argument) :
    Alike k r n 0 (Parser.moreArguments fuel named before)
      (Parser.moreArguments fuel' named before)
  primary {n : ℕ} (h : 20 * n ≤ min fuel fuel' + 19) :
    Alike k r n 1 (Parser.primary fuel) (Parser.primary fuel')
  moreText {n : ℕ} (h : 20 * n ≤ min fuel fuel' + 19) (s : String) :
    Alike k r n 0 (Parser.moreText fuel s) (Parser.moreText fuel' s)
  items {n : ℕ} (h : 20 * n ≤ min fuel fuel' + 7) (close : Symbol) (before : List Expr) :
    Alike k r n 0 (Parser.items fuel close before) (Parser.items fuel' close before)
  entries {n : ℕ} (h : 20 * n ≤ min fuel fuel' + 7) (before : List (Expr × Expr)) :
    Alike k r n 0 (Parser.entries fuel before) (Parser.entries fuel' before)

section

variable {k n fuel fuel' : ℕ} {r : String} (ih : ExprsAlike k r fuel fuel')

include ih

lemma ExprsAlike.disjunction (h : 20 * n ≤ min fuel fuel' + 9) :
    Alike k r n 1 (Parser.level fuel .disjunction) (Parser.level fuel' .disjunction) :=
  ih.level .disjunction h

lemma ExprsAlike.sum (h : 20 * n ≤ min fuel fuel' + 13) :
    Alike k r n 1 (Parser.level fuel .sum) (Parser.level fuel' .sum) :=
  ih.level .sum h

lemma alike_expr (h : 20 * n ≤ min (fuel + 1) (fuel' + 1) + 8) :
    Alike k r n 1 (expr (fuel + 1)) (expr (fuel' + 1)) := by
  rw [expr, expr]
  exact .deepen (.bind (ih.disjunction (by omega)) fun e => ih.choice (by omega) e)

lemma alike_choice (h : 20 * n ≤ min (fuel + 1) (fuel' + 1) + 19) (e : Expr) :
    Alike k r n 0 (choice (fuel + 1) e) (choice (fuel' + 1) e) := by
  rw [choice, choice]
  dsimp only
  refine .ifAccept (.bind (ih.disjunction (by omega)) fun condition => .ifAccept ?_ ?_) (.pure e)
  · exact .bind (d := 1) (.deepen (.bind (ih.disjunction (by omega)) fun no =>
      .map (ih.choice (by omega) no) some)) fun no? => ih.choice (by omega) _
  · exact .bind (.pure none) fun _ => ih.choice (by omega) _

lemma alike_level (l : Level) (h : 20 * n ≤ min (fuel + 1) (fuel' + 1) + l.room) :
    Alike k r n 1 (level (fuel + 1) l) (level (fuel' + 1) l) := by
  unfold level
  cases l <;> simp only [Level.room] at h
  case negation =>
    refine .ifAccept (.bind (ih.level .negation ?_) fun e => .pure _) (ih.level .comparison ?_)
    all_goals
      simp only [Level.room]
      omega
  case comparison =>
    refine .bind (ih.sum (by omega)) fun e => .bind (ih.comparisons (by omega) []) fun rest => ?_
    cases rest
    · exact .pure e
    · exact .pure _
  case unary =>
    exact .bind (ih.negation (by omega)) fun e => .bind (ih.postfixes (by omega) e) fun e' =>
      ih.filters (by omega) e'
  all_goals
    refine .bind (ih.level _ ?_) fun e => ih.operands (by omega) _ e
    simp only [Level.tighter, Level.room]
    omega

lemma alike_comparisons (h : 20 * n ≤ min (fuel + 1) (fuel' + 1) + 19)
    (before : List (Relation × Expr)) :
    Alike k r n 0 (comparisons (fuel + 1) before) (comparisons (fuel' + 1) before) := by
  rw [comparisons, comparisons]
  refine .bind .peek fun t? => ?_
  cases relation? t? with
  | some rel =>
    exact .bind .take fun _ => .bind (ih.sum (by omega)) fun e => ih.comparisons (by omega) _
  | none =>
    exact .ifAccept (.bind (.expects _) fun _ => .bind (ih.sum (by omega)) fun e =>
      ih.comparisons (by omega) _) (.pure _)

lemma alike_operands (h : 20 * n ≤ min (fuel + 1) (fuel' + 1) + 19) (l : Level) (left : Expr) :
    Alike k r n 0 (operands (fuel + 1) l left) (operands (fuel' + 1) l left) := by
  have hlevel : 20 * (n - 1) ≤ min fuel fuel' + l.tighter.room := by
    cases l <;> (simp only [Level.tighter, Level.room]; omega)
  rw [operands, operands]
  refine .bind .peek fun t? => ?_
  cases l.operator? t? with
  | some op =>
    exact .bind .take fun _ => .bind (ih.level _ hlevel) fun e => ih.operands (by omega) l _
  | none => exact .pure left

lemma alike_negation (h : 20 * n ≤ min (fuel + 1) (fuel' + 1) + 18) :
    Alike k r n 1 (negation (fuel + 1)) (negation (fuel' + 1)) := by
  rw [negation, negation]
  exact .ifAccept (.bind (ih.negation (by omega)) fun e => .pure _)
    (.deepen (ih.primary (by omega)))

lemma alike_postfixes (h : 20 * n ≤ min (fuel + 1) (fuel' + 1) + 18) (e : Expr) :
    Alike k r n 0 (postfixes (fuel + 1) e) (postfixes (fuel' + 1) e) := by
  rw [postfixes, postfixes]
  refine .bind .peek fun t? => .ite ?_ (.ite ?_ (.ite ?_ (.pure e)))
  · refine .bind .take fun _ => .bind .take fun t? => ?_
    split
    · exact ih.postfixes (by omega) _
    · exact ih.postfixes (by omega) _
    · exact .refuse
  · exact .bind .take fun _ => .bind (ih.subscript (by omega) e) fun e' => ih.postfixes (by omega) e'
  · exact .bind (ih.arguments (by omega)) fun args => ih.postfixes (by omega) _

lemma alike_subscript (h : 20 * n ≤ min (fuel + 1) (fuel' + 1) + 7) (e : Expr) :
    Alike k r n 0 (subscript (fuel + 1) e) (subscript (fuel' + 1) e) := by
  rw [subscript, subscript]
  dsimp only
  refine .bind .peek fun t? => .eitherBind (d := 0) (.pure none)
    (.map ((ih.expr (by omega)).le (Nat.zero_le _)) some) fun start? => .ifAccept ?_ ?_
  · have hslice {m : ℕ} (stop? step? : Option Expr) : Alike k r m 0
        (do expect (isSymbol .closeBracket); return Expr.slice e start? stop? step?)
        (do expect (isSymbol .closeBracket); return Expr.slice e start? stop? step?) :=
      .bind (.expects _) fun _ => .pure _
    refine .bind .peek fun t? => .eitherBind (d := 0) (.pure none)
      (.map ((ih.expr (by omega)).le (Nat.zero_le _)) some) fun stop? => .ifAccept ?_ ?_
    · exact .bind .peek fun t? => .eitherBind (d := 0) (.pure none)
        (.map ((ih.expr (by omega)).le (Nat.zero_le _)) some) fun step? => hslice stop? step?
    · exact .bind (.pure none) fun step? => hslice stop? step?
  · refine .bind (.expects _) fun _ => ?_
    cases start? with
    | some key => exact .pure _
    | none => exact .refuse

lemma alike_filters (h : 20 * n ≤ min (fuel + 1) (fuel' + 1) + 19) (e : Expr) :
    Alike k r n 0 (filters (fuel + 1) e) (filters (fuel' + 1) e) := by
  rw [filters, filters]
  dsimp only
  refine .bind .peek fun t? => .ite ?_ (.ite ?_ (.pure e))
  · refine .bind .take fun _ => .bind .name fun name => .bind .peek fun t? => .ite ?_ ?_
    · exact .bind (ih.arguments (by omega)) fun args => ih.filters (by omega) _
    · exact .bind (.pure []) fun _ => ih.filters (by omega) _
  · refine .bind .take fun _ => .bind (.accepts _) fun negated => .bind .name fun name =>
      .bind .peek fun t? => .ite ?_ (.ite ?_ ?_)
    · exact .bind (ih.arguments (by omega)) fun args => ih.filters (by omega) _
    · exact .bind (ih.negation (by omega)) fun arg => .bind (ih.postfixes (by omega) arg)
        fun arg' => .bind (.pure _) fun _ => ih.filters (by omega) _
    · exact .bind (.pure []) fun _ => ih.filters (by omega) _

lemma alike_arguments (h : 20 * n ≤ min (fuel + 1) (fuel' + 1) + 19) :
    Alike k r n 1 (arguments (fuel + 1)) (arguments (fuel' + 1)) := by
  rw [arguments, arguments]
  exact .bind (.expects _) fun _ => ih.moreArguments (by omega) false []

lemma alike_moreArguments (h : 20 * n ≤ min (fuel + 1) (fuel' + 1) + 7) (named : Bool)
    (before : List Argument) :
    Alike k r n 0 (moreArguments (fuel + 1) named before)
      (moreArguments (fuel' + 1) named before) := by
  rw [moreArguments, moreArguments]
  dsimp only
  refine .ifAccept (.pure _) (.iteFirst (.expects _) (.bind (.accepts _) fun closed =>
    .ite (.pure _) (.ifAccept ?_ (.ifAccept ?_ (.bind (ih.expr (by omega)) fun e => ?_)))))
  · exact .bind (ih.expr (by omega)) fun e => ih.moreArguments (by omega) true _
  · exact .bind (ih.expr (by omega)) fun e => ih.moreArguments (by omega) named _
  have hpositional : Alike k r (n - 0 - 1) (0 - 0 - 1)
      (if named = true then Parser.refuse
        else moreArguments fuel named (.positional e :: before))
      (if named = true then Parser.refuse
        else moreArguments fuel' named (.positional e :: before)) :=
    .ite .refuse (ih.moreArguments (by omega) named _)
  split
  · exact .ifAccept (.bind (ih.disjunction (by omega)) fun value =>
      ih.moreArguments (by omega) true _) hpositional
  · exact hpositional

lemma alike_primary (h : 20 * n ≤ min (fuel + 1) (fuel' + 1) + 19) :
    Alike k r n 1 (primary (fuel + 1)) (primary (fuel' + 1)) := by
  rw [primary, primary]
  refine .bind .take fun t? => ?_
  split
  · split <;> exact .pure _
  · exact .bind (ih.moreText (by omega) _) fun _ => .pure _
  · exact .pure _
  · exact .pure _
  · exact .bind (ih.items (by omega) _ []) fun _ => .pure _
  · exact .bind (ih.entries (by omega) []) fun _ => .pure _
  · refine .ifAccept (.pure _) (.bind (ih.expr (by omega)) fun e => .bind .peek fun t? => .ite ?_ ?_)
    · exact .bind (ih.items (by omega) _ _) fun _ => .pure _
    · exact .bind (.expects _) fun _ => .pure e
  · exact .refuse

lemma alike_moreText (h : 20 * n ≤ min (fuel + 1) (fuel' + 1) + 19) (s : String) :
    Alike k r n 0 (moreText (fuel + 1) s) (moreText (fuel' + 1) s) := by
  rw [moreText, moreText]
  refine .bind .peek fun t? => ?_
  split
  · exact .bind .take fun _ => ih.moreText (by omega) _
  · exact .pure s

lemma alike_items (h : 20 * n ≤ min (fuel + 1) (fuel' + 1) + 7) (close : Symbol)
    (before : List Expr) :
    Alike k r n 0 (items (fuel + 1) close before) (items (fuel' + 1) close before) := by
  rw [items, items]
  dsimp only
  refine .ifAccept (.pure _) (.iteFirst (.expects _) (.bind (.accepts _) fun closed =>
    .ite (.pure _) ?_))
  exact .bind (ih.expr (by omega)) fun e => ih.items (by omega) close _

lemma alike_entries (h : 20 * n ≤ min (fuel + 1) (fuel' + 1) + 7)
    (before : List (Expr × Expr)) :
    Alike k r n 0 (entries (fuel + 1) before) (entries (fuel' + 1) before) := by
  rw [entries, entries]
  dsimp only
  refine .ifAccept (.pure _) (.iteFirst (.expects _) (.bind (.accepts _) fun closed =>
    .ite (.pure _) ?_))
  exact .bind (ih.expr (by omega)) fun key => .bind (.expects _) fun _ =>
    .bind (ih.expr (by omega)) fun value => ih.entries (by omega) _

lemma ExprsAlike.succ : ExprsAlike k r (fuel + 1) (fuel' + 1) where
  expr := alike_expr ih
  choice := alike_choice ih
  level := alike_level ih
  comparisons := alike_comparisons ih
  operands := alike_operands ih
  negation := alike_negation ih
  postfixes := alike_postfixes ih
  subscript := alike_subscript ih
  filters := alike_filters ih
  arguments := alike_arguments ih
  moreArguments := alike_moreArguments ih
  primary := alike_primary ih
  moreText := alike_moreText ih
  items := alike_items ih
  entries := alike_entries ih

end

section

variable {k : ℕ} {r : String}

lemma Level.room_lt (l : Level) : l.room < 20 := by
  cases l <;> decide

/-- Without any steps, both parsers are refused. -/
lemma ExprsAlike.zero : ExprsAlike k r 0 0 where
  expr _ := by rw [Parser.expr]; exact .refuse
  choice _ e := by rw [Parser.choice]; exact .refuse
  level l _ := by rw [Parser.level]; exact .refuse
  comparisons _ before := by rw [Parser.comparisons]; exact .refuse
  operands _ l left := by rw [Parser.operands]; exact .refuse
  negation _ := by rw [Parser.negation]; exact .refuse
  postfixes _ e := by rw [Parser.postfixes]; exact .refuse
  subscript _ e := by rw [Parser.subscript]; exact .refuse
  filters _ e := by rw [Parser.filters]; exact .refuse
  arguments _ := by rw [Parser.arguments]; exact .refuse
  moreArguments _ named before := by rw [Parser.moreArguments]; exact .refuse
  primary _ := by rw [Parser.primary]; exact .refuse
  moreText _ s := by rw [Parser.moreText]; exact .refuse
  items _ close before := by rw [Parser.items]; exact .refuse
  entries _ before := by rw [Parser.entries]; exact .refuse

/-- Where one of the parsers may take no step, there is no token for the other. -/
lemma ExprsAlike.spent {fuel fuel' : ℕ} (hmin : min fuel fuel' = 0) (ih : ExprsAlike k r fuel fuel)
    (ih' : ExprsAlike k r fuel' fuel') : ExprsAlike k r fuel fuel' where
  expr h := .spent (by omega) (ih.expr (by omega)) (ih'.expr (by omega))
  choice h e := .spent (by omega) (ih.choice (by omega) e) (ih'.choice (by omega) e)
  level l h := .spent (by have := l.room_lt; omega) (ih.level l (by omega)) (ih'.level l (by omega))
  comparisons h before := .spent (by omega) (ih.comparisons (by omega) before)
    (ih'.comparisons (by omega) before)
  operands h l left := .spent (by omega) (ih.operands (by omega) l left)
    (ih'.operands (by omega) l left)
  negation h := .spent (by omega) (ih.negation (by omega)) (ih'.negation (by omega))
  postfixes h e := .spent (by omega) (ih.postfixes (by omega) e) (ih'.postfixes (by omega) e)
  subscript h e := .spent (by omega) (ih.subscript (by omega) e) (ih'.subscript (by omega) e)
  filters h e := .spent (by omega) (ih.filters (by omega) e) (ih'.filters (by omega) e)
  arguments h := .spent (by omega) (ih.arguments (by omega)) (ih'.arguments (by omega))
  moreArguments h named before := .spent (by omega) (ih.moreArguments (by omega) named before)
    (ih'.moreArguments (by omega) named before)
  primary h := .spent (by omega) (ih.primary (by omega)) (ih'.primary (by omega))
  moreText h s := .spent (by omega) (ih.moreText (by omega) s) (ih'.moreText (by omega) s)
  items h close before := .spent (by omega) (ih.items (by omega) close before)
    (ih'.items (by omega) close before)
  entries h before := .spent (by omega) (ih.entries (by omega) before)
    (ih'.entries (by omega) before)

/-- On texts with white space around them, expressions are parsed alike. -/
theorem exprsAlike (fuel fuel' : ℕ) : ExprsAlike k r fuel fuel' :=
  forall_steps .zero (fun _ _ ih => ih.succ) (fun _ _ hmin ih ih' => .spent hmin ih ih') fuel fuel'

end

end BurnRate.Expression.Parser
