import BurnRate.Proofs.ExpressionSteps

/-!
The parsers of statements, step by step on two texts with other white space around them.
-/

namespace BurnRate.Expression.Parser

section

variable {k n : ℕ} {r : String}

lemma alike_assignedName : Alike k r n 1 assignedName assignedName :=
  .bind .name fun _ => .ite .refuse (.pure _)

lemma alike_contextWords : Alike k r n 0 contextWords contextWords :=
  .ifAccept ((Alike.expects _).le (Nat.zero_le _)) (.pure ())

lemma alike_setInRoutine (b : Bool) :
    Alike k r n 0 (modify fun st => { st with inRoutine := b })
      (modify fun st => { st with inRoutine := b }) :=
  .modifies (fun _ => rfl) fun _ _ hst => ⟨hst.tokens, hst.line, hst.depth, hst.blocks, rfl⟩

lemma alike_addBlock (name : String) :
    Alike k r n 0 (modify fun st => { st with blocks := name :: st.blocks })
      (modify fun st => { st with blocks := name :: st.blocks }) :=
  .modifies (fun _ => rfl) fun _ _ hst =>
    ⟨hst.tokens, hst.line, hst.depth, congrArg (name :: ·) hst.blocks, hst.inRoutine⟩

end

/-- Lists of statements and what stands in tags are parsed alike where the steps that are allowed
are enough for the tokens. -/
structure TagsAlike (k : ℕ) (r : String) (fuel fuel' : ℕ) : Prop where
  dotted {n : ℕ} (h : 20 * n ≤ min fuel fuel' + 19) (e : Expr) :
    Alike k r n 0 (Parser.dotted fuel e) (Parser.dotted fuel' e)
  target {n : ℕ} (h : 20 * n ≤ min fuel fuel' + 19) (attributes : Bool) :
    Alike k r n 0 (Parser.target fuel attributes) (Parser.target fuel' attributes)
  targets {n : ℕ} (h : 20 * n ≤ min fuel fuel' + 18) (attributes : Bool) :
    Alike k r n 0 (Parser.targets fuel attributes) (Parser.targets fuel' attributes)
  moreTargets {n : ℕ} (h : 20 * n ≤ min fuel fuel' + 19) (attributes : Bool)
    (before : List Expr) (e : Expr) :
    Alike k r n 0 (Parser.moreTargets fuel attributes before e)
      (Parser.moreTargets fuel' attributes before e)
  values {n : ℕ} (h : 20 * n ≤ min fuel fuel' + 7) (before : List Expr) :
    Alike k r n 0 (Parser.values fuel before) (Parser.values fuel' before)
  filterChain {n : ℕ} (h : 20 * n ≤ min fuel fuel' + 19) (before? : Option Expr) :
    Alike k r n 0 (Parser.filterChain fuel before?) (Parser.filterChain fuel' before?)
  assignments {n : ℕ} (h : 20 * n ≤ min fuel fuel' + 18) (before : List (Expr × Expr)) :
    Alike k r n 0 (Parser.assignments fuel before) (Parser.assignments fuel' before)
  importedNames {n : ℕ} (h : 20 * n ≤ min fuel fuel' + 19)
    (before : List (String × Option String)) :
    Alike k r n 0 (Parser.importedNames fuel before) (Parser.importedNames fuel' before)
  parameters {n : ℕ} (h : 20 * n ≤ min fuel fuel' + 19) (params : List String)
    (defaults : List Expr) :
    Alike k r n 0 (Parser.parameters fuel params defaults)
      (Parser.parameters fuel' params defaults)

section

variable {k n fuel fuel' : ℕ} {r : String} (ih : TagsAlike k r fuel fuel')

include ih

lemma alike_dotted (h : 20 * n ≤ min (fuel + 1) (fuel' + 1) + 19) (e : Expr) :
    Alike k r n 0 (dotted (fuel + 1) e) (dotted (fuel' + 1) e) := by
  rw [dotted, dotted]
  exact .ifAccept (.bind .name fun name => ih.dotted (by omega) _) (.pure e)

lemma alike_target (h : 20 * n ≤ min (fuel + 1) (fuel' + 1) + 19) (attributes : Bool) :
    Alike k r n 0 (target (fuel + 1) attributes) (target (fuel' + 1) attributes) := by
  rw [target, target]
  dsimp only
  refine .ifAccept (.bind (ih.targets (by omega) _) fun e => .bind (.expects _) fun _ => .pure e)
    (.bind alike_assignedName fun name => .ite (ih.dotted (by omega) _) (.pure _))

lemma alike_targets (h : 20 * n ≤ min (fuel + 1) (fuel' + 1) + 18) (attributes : Bool) :
    Alike k r n 0 (targets (fuel + 1) attributes) (targets (fuel' + 1) attributes) := by
  rw [targets, targets]
  exact .bind .peek fun t? => .ite (.pure _)
    (.bind (ih.target (by omega) _) fun e => ih.moreTargets (by omega) _ _ e)

lemma alike_moreTargets (h : 20 * n ≤ min (fuel + 1) (fuel' + 1) + 19) (attributes : Bool)
    (before : List Expr) (e : Expr) :
    Alike k r n 0 (moreTargets (fuel + 1) attributes before e)
      (moreTargets (fuel' + 1) attributes before e) := by
  rw [moreTargets, moreTargets]
  refine .ifAccept (.bind .peek fun t? => .ite (.pure _) ?_) (.ite (.pure _) (.pure _))
  exact .bind (ih.target (by omega) _) fun e' => ih.moreTargets (by omega) _ _ e'

lemma alike_values (h : 20 * n ≤ min (fuel + 1) (fuel' + 1) + 7) (before : List Expr) :
    Alike k r n 0 (values (fuel + 1) before) (values (fuel' + 1) before) := by
  rw [values, values]
  refine .bind .peek fun t? => .ite (.pure _)
    (.bind ((exprsAlike fuel fuel').expr (by omega)) fun e => .ifAccept ?_ ?_)
  · exact ih.values (by omega) _
  · exact .ite (.pure _) (.pure _)

lemma alike_filterChain (h : 20 * n ≤ min (fuel + 1) (fuel' + 1) + 19) (before? : Option Expr) :
    Alike k r n 0 (filterChain (fuel + 1) before?) (filterChain (fuel' + 1) before?) := by
  unfold filterChain
  dsimp only
  refine .bind .peek fun t? => .ite ?_ (.iteFirst (.expects _) (.bind .name fun name =>
    .bind .peek fun t? => .eitherBind (d := 0)
      (((exprsAlike fuel fuel').arguments (by omega)).le (Nat.zero_le _)) (.pure _) fun args =>
      ih.filterChain (by omega) _))
  cases before? with
  | some e => exact .pure e
  | none => exact .refuse

lemma alike_assignments (h : 20 * n ≤ min (fuel + 1) (fuel' + 1) + 18)
    (before : List (Expr × Expr)) :
    Alike k r n 0 (assignments (fuel + 1) before) (assignments (fuel' + 1) before) := by
  rw [assignments, assignments]
  dsimp only
  exact .bind .peek fun t? => .ite (.pure _) (.iteFirst (.expects _)
    (.bind (ih.target (by omega) _) fun e => .bind (.expects _) fun _ =>
      .bind ((exprsAlike fuel fuel').expr (by omega)) fun value => ih.assignments (by omega) _))

lemma alike_importedNames (h : 20 * n ≤ min (fuel + 1) (fuel' + 1) + 19)
    (before : List (String × Option String)) :
    Alike k r n 0 (importedNames (fuel + 1) before) (importedNames (fuel' + 1) before) := by
  rw [importedNames, importedNames]
  dsimp only
  refine .bind .peek fun t? => .ite (.pure _) (.iteFirst (.expects _) (.bind .peek fun t? =>
    .ite (.pure _) (.bind alike_assignedName fun name => .bind (.accepts _) fun b =>
      .eitherBind (d := 0) (.map (alike_assignedName.le (Nat.zero_le _)) some) (.pure none)
        fun as? => ih.importedNames (by omega) _)))

lemma alike_parameters (h : 20 * n ≤ min (fuel + 1) (fuel' + 1) + 19) (params : List String)
    (defaults : List Expr) :
    Alike k r n 0 (parameters (fuel + 1) params defaults)
      (parameters (fuel' + 1) params defaults) := by
  rw [parameters, parameters]
  dsimp only
  refine .ifAccept (.pure _) (.iteFirst (.expects _) (.bind (.accepts _) fun closed =>
    .ite (.pure _) (.bind alike_assignedName fun name => .ifAccept ?_ (.ite ?_ .refuse))))
  · exact .bind ((exprsAlike fuel fuel').expr (by omega)) fun e => ih.parameters (by omega) _ _
  · exact ih.parameters (by omega) _ _

lemma TagsAlike.succ : TagsAlike k r (fuel + 1) (fuel' + 1) where
  dotted := alike_dotted ih
  target := alike_target ih
  targets := alike_targets ih
  moreTargets := alike_moreTargets ih
  values := alike_values ih
  filterChain := alike_filterChain ih
  assignments := alike_assignments ih
  importedNames := alike_importedNames ih
  parameters := alike_parameters ih

end

section

variable {k : ℕ} {r : String}

lemma TagsAlike.zero : TagsAlike k r 0 0 where
  dotted _ e := by rw [Parser.dotted]; exact .refuse
  target _ attributes := by rw [Parser.target]; exact .refuse
  targets _ attributes := by rw [Parser.targets]; exact .refuse
  moreTargets _ attributes before e := by rw [Parser.moreTargets]; exact .refuse
  values _ before := by rw [Parser.values]; exact .refuse
  filterChain _ before? := by rw [Parser.filterChain]; exact .refuse
  assignments _ before := by rw [Parser.assignments]; exact .refuse
  importedNames _ before := by rw [Parser.importedNames]; exact .refuse
  parameters _ params defaults := by rw [Parser.parameters]; exact .refuse

lemma TagsAlike.spent {fuel fuel' : ℕ} (hmin : min fuel fuel' = 0) (ih : TagsAlike k r fuel fuel)
    (ih' : TagsAlike k r fuel' fuel') : TagsAlike k r fuel fuel' where
  dotted h e := .spent (by omega) (ih.dotted (by omega) e) (ih'.dotted (by omega) e)
  target h attributes := .spent (by omega) (ih.target (by omega) attributes)
    (ih'.target (by omega) attributes)
  targets h attributes := .spent (by omega) (ih.targets (by omega) attributes)
    (ih'.targets (by omega) attributes)
  moreTargets h attributes before e := .spent (by omega)
    (ih.moreTargets (by omega) attributes before e) (ih'.moreTargets (by omega) attributes before e)
  values h before := .spent (by omega) (ih.values (by omega) before) (ih'.values (by omega) before)
  filterChain h before? := .spent (by omega) (ih.filterChain (by omega) before?)
    (ih'.filterChain (by omega) before?)
  assignments h before := .spent (by omega) (ih.assignments (by omega) before)
    (ih'.assignments (by omega) before)
  importedNames h before := .spent (by omega) (ih.importedNames (by omega) before)
    (ih'.importedNames (by omega) before)
  parameters h params defaults := .spent (by omega) (ih.parameters (by omega) params defaults)
    (ih'.parameters (by omega) params defaults)

lemma tagsAlike (fuel fuel' : ℕ) : TagsAlike k r fuel fuel' :=
  forall_steps .zero (fun _ _ ih => ih.succ) (fun _ _ hmin ih ih' => .spent hmin ih ih') fuel fuel'

end

/-- Statements are parsed alike where the steps that are allowed are enough for the tokens. -/
structure StatementsAlike (k : ℕ) (r : String) (fuel fuel' : ℕ) : Prop where
  statements {n : ℕ} (h : 20 * n ≤ min fuel fuel' + 19) (ends : List String)
    (before : List Statement) :
    Alike k r n 0 (Parser.statements fuel ends before) (Parser.statements fuel' ends before)
  body {n : ℕ} (h : 20 * n ≤ min fuel fuel' + 19) (ends : List String) :
    Alike k r n 0 (Parser.body fuel ends) (Parser.body fuel' ends)
  wholeBody {n : ℕ} (h : 20 * n ≤ min fuel fuel' + 18) (ending : String) :
    Alike k r n 0 (Parser.wholeBody fuel ending) (Parser.wholeBody fuel' ending)
  branch {n : ℕ} (h : 20 * n ≤ min fuel fuel' + 8) :
    Alike k r n 0 (Parser.branch fuel) (Parser.branch fuel')
  routineBody {n : ℕ} (h : 20 * n ≤ min fuel fuel' + 18) (ending : String) :
    Alike k r n 0 (Parser.routineBody fuel ending) (Parser.routineBody fuel' ending)
  statement {n : ℕ} (h : 20 * n ≤ min fuel fuel' + 19) :
    Alike k r n 0 (Parser.statement fuel) (Parser.statement fuel')

section

variable {k n fuel fuel' : ℕ} {r : String} (ih : StatementsAlike k r fuel fuel')

include ih

lemma alike_statements (h : 20 * n ≤ min (fuel + 1) (fuel' + 1) + 19) (ends : List String)
    (before : List Statement) :
    Alike k r n 0 (statements (fuel + 1) ends before) (statements (fuel' + 1) ends before) := by
  rw [statements, statements]
  refine .bind .take fun t? => ?_
  split
  · exact .pure _
  · exact ih.statements (by omega) ends _
  · refine .bind ((exprsAlike fuel fuel').expr (by omega)) fun e => .bind .take fun t? => ?_
    split
    · exact ih.statements (by omega) ends _
    · exact .refuse
  · exact .bind .peek fun t? => .ite (.pure _) (.bind (.deepen (ih.statement (by omega))) fun s =>
      .bind (.expects _) fun _ => ih.statements (by omega) ends _)
  · exact .refuse

lemma alike_body (h : 20 * n ≤ min (fuel + 1) (fuel' + 1) + 19) (ends : List String) :
    Alike k r n 0 (body (fuel + 1) ends) (body (fuel' + 1) ends) := by
  rw [body, body]
  exact .bind (.expects _) fun _ => ih.statements (by omega) ends []

lemma alike_wholeBody (h : 20 * n ≤ min (fuel + 1) (fuel' + 1) + 18) (ending : String) :
    Alike k r n 0 (wholeBody (fuel + 1) ending) (wholeBody (fuel' + 1) ending) := by
  rw [wholeBody, wholeBody]
  exact .bind (ih.body (by omega) _) fun ss => .bind .take fun _ => .pure ss

lemma alike_branch (h : 20 * n ≤ min (fuel + 1) (fuel' + 1) + 8) :
    Alike k r n 0 (branch (fuel + 1)) (branch (fuel' + 1)) := by
  rw [branch, branch]
  dsimp only
  refine .bind ((exprsAlike fuel fuel').disjunction (by omega)) fun condition =>
    .bind (ih.body (by omega) _) fun yes => .bind .take fun t? => .ite ?_ (.ite ?_ ?_)
  · exact .bind (ih.wholeBody (by omega) _) fun no => .pure _
  · exact .bind (ih.branch (by omega)) fun s => .bind (.pure [s]) fun no => .pure _
  · exact .bind (.pure []) fun no => .pure _

lemma alike_routineBody (h : 20 * n ≤ min (fuel + 1) (fuel' + 1) + 18) (ending : String) :
    Alike k r n 0 (routineBody (fuel + 1) ending) (routineBody (fuel' + 1) ending) := by
  rw [routineBody, routineBody]
  refine .getBind fun st st' _ _ hinRoutine => ?_
  rw [hinRoutine]
  exact .bind (alike_setInRoutine true) fun _ => .bind (ih.body (by omega) _) fun ss =>
    .bind (alike_setInRoutine st.inRoutine) fun _ => .bind .take fun _ => .pure ss

lemma alike_statement (h : 20 * n ≤ min (fuel + 1) (fuel' + 1) + 19) :
    Alike k r n 0 (statement (fuel + 1)) (statement (fuel' + 1)) := by
  have hexprs := exprsAlike (k := k) (r := r) fuel fuel'
  have htags := tagsAlike (k := k) (r := r) fuel fuel'
  rw [statement, statement]
  dsimp only
  refine .bind .take fun t? => ?_
  split
  -- `for`
  · exact .bind (htags.targets (by omega) _) fun target => .bind (.expects _) fun _ =>
      .bind (hexprs.disjunction (by omega)) fun items => .bind (.accepts _) fun _ =>
      .eitherBind (d := 0) (.map ((hexprs.expr (by omega)).le (Nat.zero_le _)) some) (.pure none)
        fun filter? => .bind (.accepts _) fun recursive => .bind (ih.body (by omega) _) fun ss =>
      .bind (.accepts _) fun _ => .eitherBind (d := 0) (ih.body (by omega) _) (.pure [])
        fun orElse => .bind .take fun _ => .pure _
  -- `if`
  · exact ih.branch (by omega)
  -- `with`
  · exact .bind (htags.assignments (by omega) _) fun assigned =>
      .bind (ih.wholeBody (by omega) _) fun ss => .pure _
  -- `set`
  · refine .bind (htags.target (by omega) _) fun e =>
      .bind (htags.moreTargets (by omega) _ _ e) fun target => .bind .peek fun t? => .ite ?_ ?_
    · exact .bind (.accepts _) fun _ => .eitherBind (d := 0)
        (.map (htags.filterChain (by omega) none) some) (.pure none) fun filter? =>
        .bind (ih.wholeBody (by omega) _) fun ss => .pure _
    · exact .bind (.expects _) fun _ => .bind (htags.values (by omega) _) fun e => .pure _
  -- `autoescape`
  · exact .bind (hexprs.expr (by omega)) fun mode => .bind (ih.wholeBody (by omega) _) fun ss =>
      .pure _
  -- `filter`
  · exact .bind (htags.filterChain (by omega) none) fun filter =>
      .bind (ih.wholeBody (by omega) _) fun ss => .pure _
  -- `block`
  · refine .getBind fun st st' _ _ hinRoutine => ?_
    rw [hinRoutine]
    refine .ite .refuse (.bind .name fun name => .getBind fun st st' _ hblocks _ => ?_)
    rw [hblocks]
    refine .ite .refuse (.bind (alike_addBlock name) fun _ => .bind (.accepts _) fun _ =>
      .bind (.accepts _) fun required => .bind (ih.wholeBody (by omega) _) fun ss =>
      .bind .peek fun t? => ?_)
    split
    · exact .ite (.bind .take fun _ => .ite (.pure _) (.ite (.pure _) .refuse))
        (.bind (d := 0) .refuse fun _ => .ite (.pure _) (.ite (.pure _) .refuse))
    · exact .ite (.pure _) (.ite (.pure _) .refuse)
  -- `extends`
  · exact .bind (hexprs.expr (by omega)) fun e => .pure _
  -- `include`
  · exact .bind (hexprs.expr (by omega)) fun source => .bind alike_contextWords fun _ =>
      .ifAccept (.bind (.expects _) fun _ => .bind alike_contextWords fun _ => .pure _) (.pure _)
  -- `import`
  · exact .bind (hexprs.expr (by omega)) fun source => .bind (.expects _) fun _ =>
      .bind (hexprs.expr (by omega)) fun e => .pure _
  -- `from`
  · exact .bind (hexprs.expr (by omega)) fun source => .bind (.expects _) fun _ =>
      .bind (htags.importedNames (by omega) _) fun names => .pure _
  -- `macro`
  · exact .bind .name fun name => .bind (.expects _) fun _ =>
      .bind (htags.parameters (by omega) _ _) fun _ => .bind (ih.routineBody (by omega) _) fun ss =>
      .pure _
  -- `call`
  · refine .bind (.accepts _) fun _ => .eitherBind (d := 0) (htags.parameters (by omega) _ _)
      (.pure ([], [])) fun _ => .bind (hexprs.expr (by omega)) fun e => ?_
    split
    · exact .bind (ih.routineBody (by omega) _) fun ss => .pure _
    · exact .refuse
  -- `do`
  · refine .bind (hexprs.expr (by omega)) fun e => ?_
    split
    · exact .pure _
    · exact .refuse
  · exact .refuse

lemma StatementsAlike.succ : StatementsAlike k r (fuel + 1) (fuel' + 1) where
  statements := alike_statements ih
  body := alike_body ih
  wholeBody := alike_wholeBody ih
  branch := alike_branch ih
  routineBody := alike_routineBody ih
  statement := alike_statement ih

end

section

variable {k : ℕ} {r : String}

lemma StatementsAlike.zero : StatementsAlike k r 0 0 where
  statements _ ends before := by rw [Parser.statements]; exact .refuse
  body _ ends := by rw [Parser.body]; exact .refuse
  wholeBody _ ending := by rw [Parser.wholeBody]; exact .refuse
  branch _ := by rw [Parser.branch]; exact .refuse
  routineBody _ ending := by rw [Parser.routineBody]; exact .refuse
  statement _ := by rw [Parser.statement]; exact .refuse

lemma StatementsAlike.spent {fuel fuel' : ℕ} (hmin : min fuel fuel' = 0)
    (ih : StatementsAlike k r fuel fuel) (ih' : StatementsAlike k r fuel' fuel') :
    StatementsAlike k r fuel fuel' where
  statements h ends before := .spent (by omega) (ih.statements (by omega) ends before)
    (ih'.statements (by omega) ends before)
  body h ends := .spent (by omega) (ih.body (by omega) ends) (ih'.body (by omega) ends)
  wholeBody h ending := .spent (by omega) (ih.wholeBody (by omega) ending)
    (ih'.wholeBody (by omega) ending)
  branch h := .spent (by omega) (ih.branch (by omega)) (ih'.branch (by omega))
  routineBody h ending := .spent (by omega) (ih.routineBody (by omega) ending)
    (ih'.routineBody (by omega) ending)
  statement h := .spent (by omega) (ih.statement (by omega)) (ih'.statement (by omega))

/-- On texts with white space around them, statements are parsed alike. -/
theorem statementsAlike (fuel fuel' : ℕ) : StatementsAlike k r fuel fuel' :=
  forall_steps .zero (fun _ _ ih => ih.succ) (fun _ _ hmin ih ih' => .spent hmin ih ih') fuel fuel'

end

end BurnRate.Expression.Parser
