import BurnRate.Expression.Free
import Mathlib.Data.List.Basic
import Mathlib.Tactic.Common

/-!
The names that occur in an expression text, and which of them count as free.
-/

namespace BurnRate.Expression

mutual

/-- The names that occur in an expression. -/
def Expr.names : Expr → List String
  | .literal _ => []
  | .var name => [name]
  | .not e => e.names
  | .negate e => e.names
  | .binary _ a b => a.names ++ b.names
  | .compare first rest => first.names ++ comparisonNames rest
  | .choose condition yes no? => condition.names ++ yes.names ++ optionNames no?
  | .filter _ target? args => optionNames target? ++ argumentNames args
  | .test _ target args => target.names ++ argumentNames args
  | .attribute e _ => e.names
  | .item e key => e.names ++ key.names
  | .slice e start? stop? step? =>
    e.names ++ optionNames start? ++ optionNames stop? ++ optionNames step?
  | .call callee args => callee.names ++ argumentNames args
  | .list items => allNames items
  | .map entries => entryNames entries

def optionNames : Option Expr → List String
  | none => []
  | some e => e.names

def allNames : List Expr → List String
  | [] => []
  | e :: es => e.names ++ allNames es

def comparisonNames : List (Relation × Expr) → List String
  | [] => []
  | (_, e) :: es => e.names ++ comparisonNames es

def entryNames : List (Expr × Expr) → List String
  | [] => []
  | (k, v) :: es => k.names ++ v.names ++ entryNames es

def Argument.names : Argument → List String
  | .positional e => e.names
  | .named _ e => e.names
  | .spread e => e.names
  | .spreadNamed e => e.names

def argumentNames : List Argument → List String
  | [] => []
  | a :: as => a.names ++ argumentNames as

end

mutual

/-- The names that occur in a statement, those it assigns among them. -/
def Statement.names : Statement → List String
  | .copy _ => []
  | .emit e => e.names
  | .loop target items filter? _ body orElse =>
    target.names ++ items.names ++ optionNames filter? ++ statementNames body
      ++ statementNames orElse
  | .branch condition yes no => condition.names ++ statementNames yes ++ statementNames no
  | .scope assignments body => entryNames assignments ++ statementNames body
  | .assign target value => target.names ++ value.names
  | .capture target filter? body => target.names ++ optionNames filter? ++ statementNames body
  | .escape mode body => mode.names ++ statementNames body
  | .filtered filter body => filter.names ++ statementNames body
  | .block _ body => statementNames body
  | .requiredBlock _ => []
  | .importAs source target => source.names ++ target.names
  | .importFrom source names =>
    source.names ++ names.flatMap fun (name, as?) => [name, as?.getD name]
  | .extend parent => parent.names
  | .include source _ => source.names
  | .define r => r.name :: r.names
  | .callWith callee args r => callee.names ++ argumentNames args ++ r.names
  | .run callee args => callee.names ++ argumentNames args

def statementNames : List Statement → List String
  | [] => []
  | s :: ss => s.names ++ statementNames ss

def Routine.names : Routine → List String
  | .mk _ params defaults body => params ++ allNames defaults ++ statementNames body

end

namespace Usage

variable {u v w : Usage} {n k : String}

/-- The name is assigned in a scope. -/
def Assigns (u : Usage) (n : String) : Prop := ∃ scope ∈ u.scopes, n ∈ scope

/-- The name is assigned or counts as free. -/
def Knows (u : Usage) (n : String) : Prop := u.Assigns n ∨ n ∈ u.free

/-- Nothing is assigned on the way, and what was free remains so. -/
structure Extends (u v : Usage) : Prop where
  scopes : v.scopes = u.scopes
  free : ∀ {n}, n ∈ u.free → n ∈ v.free

lemma Extends.refl (u : Usage) : u.Extends u := ⟨rfl, id⟩

lemma Extends.trans (h : u.Extends v) (k : v.Extends w) : u.Extends w :=
  ⟨k.scopes.trans h.scopes, k.free ∘ h.free⟩

lemma Extends.assigns_iff (h : u.Extends v) : v.Assigns n ↔ u.Assigns n := by
  unfold Assigns
  rw [h.scopes]

lemma Extends.knows (h : u.Extends v) (k : u.Knows n) : v.Knows n :=
  k.imp h.assigns_iff.2 h.free

lemma extends_read (u : Usage) (n : String) : u.Extends (u.read n) := by
  unfold read
  split
  · exact .refl u
  · exact ⟨rfl, List.mem_cons_of_mem n⟩

lemma knows_read (u : Usage) (n : String) : (u.read n).Knows n := by
  unfold read
  split
  · next h =>
    rw [Bool.or_eq_true, List.any_eq_true] at h
    refine h.imp ?_ (by simp)
    rintro ⟨scope, hs, hn⟩
    exact ⟨scope, hs, by simpa using hn⟩
  · exact .inr List.mem_cons_self

lemma assigns_assign : (u.assign n).Assigns k ↔ k = n ∨ u.Assigns k := by
  unfold Assigns assign
  split
  · next h => simp [h]
  · next s ss h => simp [h, or_assoc]

lemma assigns_enter : u.enter.Assigns n ↔ u.Assigns n := by
  simp [Assigns, enter]

/-- Only the innermost scope has changed, to more names, and what was free remains so. -/
structure Grows (u v : Usage) : Prop where
  outer : v.scopes.tail = u.scopes.tail
  assigns : ∀ {n}, u.Assigns n → v.Assigns n
  free : ∀ {n}, n ∈ u.free → n ∈ v.free

lemma Grows.refl (u : Usage) : u.Grows u := ⟨rfl, id, id⟩

lemma Grows.trans (h : u.Grows v) (k : v.Grows w) : u.Grows w :=
  ⟨k.outer.trans h.outer, k.assigns ∘ h.assigns, k.free ∘ h.free⟩

lemma Extends.grows (h : u.Extends v) : u.Grows v :=
  ⟨by rw [h.scopes], h.assigns_iff.2, h.free⟩

lemma grows_assign (u : Usage) (n : String) : u.Grows (u.assign n) where
  outer := by
    unfold assign
    split
    · next h => simp [h]
    · next h => simp [h]
  assigns h := assigns_assign.2 (.inr h)
  free h := by
    unfold assign
    split <;> exact h

/-- What happens in a scope of its own assigns nothing outside of it. -/
lemma Grows.leave (h : u.enter.Grows v) : u.Extends v.leave where
  scopes := by
    have ho := h.outer
    simpa [Usage.leave, enter] using ho
  free := h.free

end Usage

/-! ### Reading the names of an expression -/

mutual

lemma Expr.extends_use (u : Usage) (e : Expr) : u.Extends (e.use u) := by
  match e with
  | .literal _ => exact .refl u
  | .var name => exact u.extends_read name
  | .not e => exact e.extends_use u
  | .negate e => exact e.extends_use u
  | .binary _ a b => exact (a.extends_use u).trans (b.extends_use _)
  | .compare first rest => exact (first.extends_use u).trans (extends_useComparisons _ rest)
  | .choose condition yes no? =>
    exact ((condition.extends_use u).trans (yes.extends_use _)).trans (extends_useOption _ no?)
  | .filter _ target? args =>
    exact (extends_useOption u target?).trans (extends_useArguments _ args)
  | .test _ target args => exact (target.extends_use u).trans (extends_useArguments _ args)
  | .attribute e _ => exact e.extends_use u
  | .item e key => exact (e.extends_use u).trans (key.extends_use _)
  | .slice _ start? stop? step? =>
    exact ((extends_useOption u start?).trans (extends_useOption _ stop?)).trans
      (extends_useOption _ step?)
  | .call callee args => exact (callee.extends_use u).trans (extends_useArguments _ args)
  | .list items => exact extends_useAll u items
  | .map entries => exact extends_useEntries u entries

lemma extends_useOption (u : Usage) (e? : Option Expr) : u.Extends (useOption u e?) := by
  match e? with
  | none => exact .refl u
  | some e => exact e.extends_use u

lemma extends_useAll (u : Usage) (es : List Expr) : u.Extends (useAll u es) := by
  match es with
  | [] => exact .refl u
  | e :: es => exact (e.extends_use u).trans (extends_useAll _ es)

lemma extends_useComparisons (u : Usage) (es : List (Relation × Expr)) :
    u.Extends (useComparisons u es) := by
  match es with
  | [] => exact .refl u
  | (_, e) :: es => exact (e.extends_use u).trans (extends_useComparisons _ es)

lemma extends_useEntries (u : Usage) (es : List (Expr × Expr)) :
    u.Extends (useEntries u es) := by
  match es with
  | [] => exact .refl u
  | (k, v) :: es =>
    exact ((k.extends_use u).trans (v.extends_use _)).trans (extends_useEntries _ es)

lemma Argument.extends_use (u : Usage) (a : Argument) : u.Extends (a.use u) := by
  match a with
  | .positional e => exact e.extends_use u
  | .named _ e => exact e.extends_use u
  | .spread e => exact e.extends_use u
  | .spreadNamed e => exact e.extends_use u

lemma extends_useArguments (u : Usage) (as : List Argument) :
    u.Extends (useArguments u as) := by
  match as with
  | [] => exact .refl u
  | a :: as => exact (a.extends_use u).trans (extends_useArguments _ as)

end

/-! ### Names that do not occur are not free -/

@[simp] lemma Usage.free_enter (u : Usage) : u.enter.free = u.free := rfl
@[simp] lemma Usage.free_leave (u : Usage) : u.leave.free = u.free := rfl

@[simp] lemma Usage.free_assign (u : Usage) (n : String) : (u.assign n).free = u.free := by
  unfold Usage.assign
  split <;> rfl

lemma Usage.free_foldl_assign {α : Type} (f : α → String) (as : List α) (u : Usage) :
    (as.foldl (fun u a => u.assign (f a)) u).free = u.free := by
  induction as generalizing u with
  | nil => rfl
  | cons a as ih => rw [List.foldl_cons, ih, Usage.free_assign]

mutual

@[simp] lemma Expr.free_assign (u : Usage) (e : Expr) : (e.assign u).free = u.free := by
  match e with
  | .var name => exact u.free_assign name
  | .list es => exact free_assignAll u es
  | .literal _ | .not _ | .negate _ | .binary _ _ _ | .compare _ _ | .choose _ _ _
  | .filter _ _ _ | .test _ _ _ | .attribute _ _ | .item _ _ | .slice _ _ _ _ | .call _ _
  | .map _ => rfl

lemma free_assignAll (u : Usage) (es : List Expr) : (assignAll u es).free = u.free := by
  match es with
  | [] => rfl
  | e :: es => rw [assignAll, free_assignAll, Expr.free_assign]

end

section

variable {x : String} {u : Usage}

lemma Usage.not_mem_read {n : String} (hn : x ≠ n) (h : x ∉ u.free) : x ∉ (u.read n).free := by
  unfold read
  split
  · exact h
  · simp [hn, h]

mutual

lemma Expr.not_mem_use {e : Expr} (he : x ∉ e.names) {u : Usage} (h : x ∉ u.free) :
    x ∉ (e.use u).free := by
  match e with
  | .literal _ => exact h
  | .var name => exact Usage.not_mem_read (by simpa [Expr.names] using he) h
  | .not e => exact e.not_mem_use he h
  | .negate e => exact e.not_mem_use he h
  | .binary _ a b =>
    simp only [Expr.names, List.mem_append, not_or] at he
    exact b.not_mem_use he.2 (a.not_mem_use he.1 h)
  | .compare first rest =>
    simp only [Expr.names, List.mem_append, not_or] at he
    exact not_mem_useComparisons he.2 (first.not_mem_use he.1 h)
  | .choose condition yes no? =>
    simp only [Expr.names, List.mem_append, not_or] at he
    exact not_mem_useOption he.2 (yes.not_mem_use he.1.2 (condition.not_mem_use he.1.1 h))
  | .filter _ target? args =>
    simp only [Expr.names, List.mem_append, not_or] at he
    exact not_mem_useArguments he.2 (not_mem_useOption he.1 h)
  | .test _ target args =>
    simp only [Expr.names, List.mem_append, not_or] at he
    exact not_mem_useArguments he.2 (target.not_mem_use he.1 h)
  | .attribute e _ => exact e.not_mem_use he h
  | .item e key =>
    simp only [Expr.names, List.mem_append, not_or] at he
    exact key.not_mem_use he.2 (e.not_mem_use he.1 h)
  | .slice _ start? stop? step? =>
    simp only [Expr.names, List.mem_append, not_or] at he
    exact not_mem_useOption he.2 (not_mem_useOption he.1.2 (not_mem_useOption he.1.1.2 h))
  | .call callee args =>
    simp only [Expr.names, List.mem_append, not_or] at he
    exact not_mem_useArguments he.2 (callee.not_mem_use he.1 h)
  | .list items => exact not_mem_useAll he h
  | .map entries => exact not_mem_useEntries he h

lemma not_mem_useOption {e? : Option Expr} (he : x ∉ optionNames e?) {u : Usage}
    (h : x ∉ u.free) : x ∉ (useOption u e?).free := by
  match e? with
  | none => exact h
  | some e => exact e.not_mem_use he h

lemma not_mem_useAll {es : List Expr} (he : x ∉ allNames es) {u : Usage} (h : x ∉ u.free) :
    x ∉ (useAll u es).free := by
  match es with
  | [] => exact h
  | e :: es =>
    simp only [allNames, List.mem_append, not_or] at he
    exact not_mem_useAll he.2 (e.not_mem_use he.1 h)

lemma not_mem_useComparisons {es : List (Relation × Expr)} (he : x ∉ comparisonNames es)
    {u : Usage} (h : x ∉ u.free) : x ∉ (useComparisons u es).free := by
  match es with
  | [] => exact h
  | (_, e) :: es =>
    simp only [comparisonNames, List.mem_append, not_or] at he
    exact not_mem_useComparisons he.2 (e.not_mem_use he.1 h)

lemma not_mem_useEntries {es : List (Expr × Expr)} (he : x ∉ entryNames es) {u : Usage}
    (h : x ∉ u.free) : x ∉ (useEntries u es).free := by
  match es with
  | [] => exact h
  | (k, v) :: es =>
    simp only [entryNames, List.mem_append, not_or] at he
    exact not_mem_useEntries he.2 (v.not_mem_use he.1.2 (k.not_mem_use he.1.1 h))

lemma Argument.not_mem_use {a : Argument} (ha : x ∉ a.names) {u : Usage} (h : x ∉ u.free) :
    x ∉ (a.use u).free := by
  match a with
  | .positional e => exact e.not_mem_use ha h
  | .named _ e => exact e.not_mem_use ha h
  | .spread e => exact e.not_mem_use ha h
  | .spreadNamed e => exact e.not_mem_use ha h

lemma not_mem_useArguments {as : List Argument} (ha : x ∉ argumentNames as) {u : Usage}
    (h : x ∉ u.free) : x ∉ (useArguments u as).free := by
  match as with
  | [] => exact h
  | a :: as =>
    simp only [argumentNames, List.mem_append, not_or] at ha
    exact not_mem_useArguments ha.2 (a.not_mem_use ha.1 h)

end

lemma not_mem_useAssignments {assignments : List (Expr × Expr)}
    (ha : x ∉ entryNames assignments) {u : Usage} (h : x ∉ u.free) :
    x ∉ (useAssignments u assignments).free := by
  induction assignments generalizing u with
  | nil => exact h
  | cons a assignments ih =>
    simp only [entryNames, List.mem_append, not_or] at ha
    exact ih ha.2 (a.2.not_mem_use ha.1.2 (by simpa using h))

mutual

lemma Statement.not_mem_use {s : Statement} (hs : x ∉ s.names) {u : Usage} (h : x ∉ u.free) :
    x ∉ (s.use u).free := by
  match s with
  | .copy _ => exact h
  | .emit e => exact e.not_mem_use hs h
  | .loop target items filter? _ body orElse =>
    simp only [Statement.names, List.mem_append, not_or] at hs
    refine not_mem_useStatements hs.2 (not_mem_useStatements (u := useOption _ filter?) hs.1.2 ?_)
    refine not_mem_useOption hs.1.1.2 ?_
    rw [Expr.free_assign]
    exact items.not_mem_use hs.1.1.1.2 (by simpa using h)
  | .branch condition yes no =>
    simp only [Statement.names, List.mem_append, not_or] at hs
    exact not_mem_useStatements hs.2
      (not_mem_useStatements (u := (condition.use u).enter) hs.1.2 (condition.not_mem_use hs.1.1 h))
  | .scope assignments body =>
    simp only [Statement.names, List.mem_append, not_or] at hs
    exact not_mem_useStatements hs.2 (not_mem_useAssignments hs.1 h)
  | .assign target value =>
    simp only [Statement.names, List.mem_append, not_or] at hs
    exact value.not_mem_use hs.2 (by simpa using h)
  | .capture target _ body =>
    simp only [Statement.names, List.mem_append, not_or] at hs
    exact not_mem_useStatements hs.2 (by simpa using h)
  | .escape _ body =>
    simp only [Statement.names, List.mem_append, not_or] at hs
    exact not_mem_useStatements hs.2 (by simpa using h)
  | .filtered _ body =>
    simp only [Statement.names, List.mem_append, not_or] at hs
    exact not_mem_useStatements hs.2 (by simpa using h)
  | .block _ body => exact not_mem_useStatements hs (by simpa using h)
  | .requiredBlock _ => exact h
  | .importAs _ target =>
    change x ∉ (target.assign u).free
    simpa using h
  | .importFrom _ names =>
    change x ∉ (names.foldl _ u).free
    rwa [Usage.free_foldl_assign]
  | .extend _ => exact h
  | .include _ _ => exact h
  | .define r =>
    simp only [Statement.names, List.mem_cons, not_or] at hs
    exact r.not_mem_use hs.2 (by simpa using h)
  | .callWith callee args r =>
    simp only [Statement.names, List.mem_append, not_or] at hs
    exact r.not_mem_use hs.2 (not_mem_useArguments hs.1.2 (callee.not_mem_use hs.1.1 h))
  | .run callee args =>
    simp only [Statement.names, List.mem_append, not_or] at hs
    exact not_mem_useArguments hs.2 (callee.not_mem_use hs.1 h)

lemma not_mem_useStatements {ss : List Statement} (hs : x ∉ statementNames ss) {u : Usage}
    (h : x ∉ u.free) : x ∉ (useStatements u ss).free := by
  match ss with
  | [] => exact h
  | s :: ss =>
    simp only [statementNames, List.mem_append, not_or] at hs
    exact not_mem_useStatements hs.2 (s.not_mem_use hs.1 h)

lemma Routine.not_mem_use {r : Routine} (hr : x ∉ r.names) {u : Usage} (h : x ∉ u.free) :
    x ∉ (r.use u).free := by
  match r with
  | .mk _ params defaults body =>
    simp only [Routine.names, List.mem_append, not_or] at hr
    have hfree := Usage.free_foldl_assign id params (u.enter.assign "caller")
    refine not_mem_useStatements hr.2 (not_mem_useAll hr.1.2 fun hx => h ?_)
    simpa using hfree ▸ hx

end

/-- A routine takes no name from outside that does not occur in it. -/
lemma Routine.not_mem_freeNames {r : Routine} (hr : x ∉ r.names) : x ∉ r.freeNames := by
  match r with
  | .mk _ params defaults body =>
    simp only [Routine.names, List.mem_append, not_or] at hr
    have hfree : (params.foldl Usage.assign {}).free = [] :=
      Usage.free_foldl_assign id params {}
    refine not_mem_useStatements hr.2 (not_mem_useAll hr.1.2 ?_)
    change x ∉ (params.foldl Usage.assign {}).free
    rw [hfree]
    exact List.not_mem_nil

lemma mem_statementNames {ss : List Statement} :
    x ∈ statementNames ss ↔ ∃ s ∈ ss, x ∈ s.names := by
  induction ss with
  | nil => simp [statementNames]
  | cons s ss ih => simp [statementNames, ih]

/-- A name that is free in a text occurs in it. -/
lemma mem_names_of_mem_freeNames {ss : List Statement} (h : x ∈ freeNames ss) :
    x ∈ statementNames ss := by
  by_contra hs
  exact not_mem_useStatements hs (by simp) h

end

end BurnRate.Expression
