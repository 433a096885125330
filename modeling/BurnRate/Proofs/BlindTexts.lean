import BurnRate.Expression.Render
import BurnRate.Proofs.UnseenNames

/-!
Texts that do not have a name are blind to it: whatever value the name has, they are rendered alike.
-/

namespace BurnRate.Expression

namespace Eval.Blind

variable {x : String}

/-! ### Calls -/

lemma newRecord (a : Arguments) : Blind x (Eval.newRecord a) := by
  have hadd (attributes : Names) : Blind x (Eval.newRecord.add attributes) :=
    update (fun m => (.record m.records.length, { m with records := m.records ++ [attributes] }))
      (fun m => rfl) (fun m v o => rfl) fun m hm => ⟨⟨hm.blocks, hm.routines, hm.loops⟩, rfl, rfl⟩
  refine (lift _).bind fun vs => ?_
  split
  · exact hadd []
  · split
    · exact hadd []
    · exact hadd []
    · refine bind (mapM fun (k, v) _ => ?_) fun attributes => hadd attributes
      cases k with
      | text name _ => exact pure _
      | _ => exact throw _
    · exact throw _
  · exact throw _

lemma callBuiltin (name : String) (a : Arguments) : Blind x (Eval.callBuiltin name a) := by
  unfold Eval.callBuiltin
  split
  · exact lift _
  · exact lift _
  · exact newRecord a
  · exact (lift _).bind fun _ => pure _

lemma changed (id : ℕ) (vs : List Value) : Blind x (Eval.changed id vs) := by
  unfold Eval.changed
  exact update _ (fun _ => rfl) (fun _ _ _ => rfl)
    fun _ hm => ⟨⟨hm.blocks, hm.routines, hm.loops⟩, rfl, rfl⟩

section

variable {perform : Task → Eval Unit} (hx : x ≠ "caller")
  (hp : ∀ t : Task, x ∉ t.names → Blind x (perform t))

include hx hp

lemma call (v : Value) (a : Arguments) : Blind x (Eval.call perform v a) := by
  unfold Eval.call
  split
  · exact callBuiltin _ a
  · next id _ =>
    refine get_bind (fun m hm => ?_) fun m v o => rfl
    split
    · next r closure? hr =>
      have hnames : x ∉ r.names := hm.routines _ (List.mem_of_getElem? hr)
      refine (lift _).bind fun values => inRoutine ?_ rfl (hp _ hnames)
      split
      · simpa using hx.symm
      · simp
    · exact throw _
  · exact throw _

lemma callFound (f? : Option Value) (a : Arguments) : Blind x (match f? with
    | some f => Eval.call perform f a
    | Option.none => MonadExcept.throw .unknownMethod) := by
  split
  · exact call hx hp _ a
  · exact throw _

lemma callMethod (v : Value) (name : String) (a : Arguments) :
    Blind x (Eval.callMethod perform v name a) := by
  unfold Eval.callMethod
  split
  · exact changed _ _
  · exact pure _
  · exact throw _
  · exact get_bind (fun _ _ => callFound hx hp _ a) fun _ _ _ => rfl

omit hx in
lemma callLoop (a : Arguments) : Blind x (Eval.callLoop perform a) := by
  unfold Eval.callLoop
  split
  · refine get_bind (fun m hm => ?_) fun m v o => by rw [Machine.twin_running?]
    split
    · next r hr =>
      split
      · next form hform =>
        obtain ⟨f, hf, hloop⟩ := List.exists_of_findSome?_eq_some hr
        exact captured (hp _ (hm.loops f hf r hloop form hform))
      · exact throw _
    · exact throw _
  · exact throw _

lemma callNamed {name : String} (hname : name ≠ x) (a : Arguments) :
    Blind x (Eval.callNamed perform name a) := by
  unfold Eval.callNamed
  split
  · exact throw _
  · exact callLoop hp a
  · refine (lookup? hname).bind fun v? => ?_
    split
    · exact call hx hp _ a
    · exact throw _

omit hx in
lemma block (name : String) : Blind x (Eval.block perform name) := by
  refine get_bind (fun m hm => ?_) fun m v o => rfl
  split
  · next body hbody =>
    obtain ⟨before, after, hblocks, -⟩ := List.lookup_eq_some_iff.1 hbody
    exact inFrame (by simp) rfl (hp _ (hm.blocks (name, body) (by simp [hblocks])))
  · exact throw _

end

end Eval.Blind

/-! ### Expressions -/

section

variable {x : String} {perform : Task → Eval Unit} (hx : x ≠ "caller")
  (hp : ∀ t : Task, x ∉ t.names → Eval.Blind x (perform t))

omit hx hp in
lemma blind_evalArguments {args : List Argument}
    (hpositional : Eval.Blind x (evalPositional perform args))
    (hnamed : Eval.Blind x (evalNamed perform args)) :
    Eval.Blind x (evalArguments perform args) := by
  rw [evalArguments]
  exact hpositional.bind fun vs => hnamed.bind fun ns => .pure _

set_option linter.unusedSectionVars false

include hx hp

mutual

lemma Expr.blind_eval {e : Expr} (he : x ∉ e.names) : Eval.Blind x (e.eval perform) := by
  match e with
  | .literal l =>
    rw [Expr.eval]
    exact .pure _
  | .var name =>
    rw [Expr.eval]
    have hname : name ≠ x := by
      rintro rfl
      simp [Expr.names] at he
    exact (Eval.Blind.lookup? hname).bind fun _ => .pure _
  | .not e =>
    rw [Expr.eval]
    exact (e.blind_eval he).bind fun v => (Eval.Blind.lift _).bind fun b => .pure _
  | .negate e =>
    rw [Expr.eval]
    exact (e.blind_eval he).bind fun v => .lift _
  | .binary op a b =>
    simp only [Expr.names, List.mem_append, not_or] at he
    have ha := a.blind_eval he.1
    have hb := b.blind_eval he.2
    have hboth : Eval.Blind x (do
        let v ← Eval.opened (← a.eval perform)
        v.apply op (← Eval.opened (← b.eval perform)) : Eval Value) :=
      ha.bind fun v => (Eval.Blind.opened v).bind fun _ => hb.bind fun w =>
        (Eval.Blind.opened w).bind fun _ => .lift _
    cases op with
    | and =>
      rw [Expr.eval]
      refine ha.bind fun v => (Eval.Blind.lift _).bind fun b => ?_
      split
      · exact hb
      · exact .pure _
    | or =>
      rw [Expr.eval]
      refine ha.bind fun v => (Eval.Blind.lift _).bind fun b => ?_
      split
      · exact .pure _
      · exact hb
    | _ =>
      rw [Expr.eval]
      · exact hboth
      · exact nofun
      · exact nofun
  | .compare first rest =>
    simp only [Expr.names, List.mem_append, not_or] at he
    rw [Expr.eval]
    exact (first.blind_eval he.1).bind fun v => blind_evalComparisons v he.2
  | .choose condition yes no? =>
    simp only [Expr.names, List.mem_append, not_or] at he
    rw [Expr.eval]
    refine (condition.blind_eval he.1.1).bind fun v => (Eval.Blind.lift _).bind fun b => ?_
    split
    · exact yes.blind_eval he.1.2
    · exact blind_evalOption _ he.2
  | .filter name target? args =>
    simp only [Expr.names, List.mem_append, not_or] at he
    rw [Expr.eval]
    exact .get_bind (fun m _ => (blind_evalOption _ he.1).bind fun v =>
      (Eval.Blind.opened v).bind fun w => (blind_evalArguments (blind_evalPositional he.2)
        (blind_evalNamed he.2)).bind fun a => .lift _)
      fun m v o => rfl
  | .test name target args =>
    simp only [Expr.names, List.mem_append, not_or] at he
    rw [Expr.eval]
    exact (target.blind_eval he.1).bind fun v => (Eval.Blind.opened v).bind fun w =>
      (blind_evalArguments (blind_evalPositional he.2) (blind_evalNamed he.2)).bind fun a =>
        (Eval.Blind.lift _).bind fun b => .pure _
  | .attribute e name =>
    rw [Expr.eval]
    exact (e.blind_eval he).bind fun v => .part _ _ _
  | .item e key =>
    simp only [Expr.names, List.mem_append, not_or] at he
    rw [Expr.eval]
    exact (e.blind_eval he.1).bind fun v => (key.blind_eval he.2).bind fun k => .part _ _ _
  | .slice e start? stop? step? =>
    simp only [Expr.names, List.mem_append, not_or] at he
    rw [Expr.eval]
    exact (e.blind_eval he.1.1.1).bind fun v => (blind_evalOption _ he.1.1.2).bind fun a =>
      (blind_evalOption _ he.1.2).bind fun b => (blind_evalOption _ he.2).bind fun c => .lift _
  | .call callee args =>
    simp only [Expr.names, List.mem_append, not_or] at he
    rw [Expr.eval]
    exact callee.blind_evalCall he.1 (callee.blind_eval he.1)
      (blind_evalArguments (blind_evalPositional he.2) (blind_evalNamed he.2))
  | .list items =>
    rw [Expr.eval]
    exact (blind_evalAll he).bind fun vs => .pure _
  | .map entries =>
    rw [Expr.eval]
    exact (blind_evalEntries he).bind fun es => .pure _

lemma Expr.blind_evalCall {e : Expr} (he : x ∉ e.names) {value : Eval Value}
    {args : Eval Arguments} (hvalue : Eval.Blind x value) (hargs : Eval.Blind x args) :
    Eval.Blind x (e.evalCall perform value args) := by
  match e with
  | .var name =>
    have hname : name ≠ x := by
      rintro rfl
      simp [Expr.names] at he
    rw [Expr.evalCall]
    exact hargs.bind fun a => .callNamed hx hp hname a
  | .attribute e name =>
    have heval := e.blind_eval he
    rw [Expr.evalCall]
    split
    · exact .captured (.block hp name)
    · exact heval.bind fun v => hargs.bind fun a => .callMethod hx hp v name a
  | .literal _ | .not _ | .negate _ | .binary _ _ _ | .compare _ _ | .choose _ _ _
  | .filter _ _ _ | .test _ _ _ | .item _ _ | .slice _ _ _ _ | .call _ _ | .list _ | .map _ =>
    rw [Expr.evalCall]
    · exact hvalue.bind fun v => hargs.bind fun a => .call hx hp v a
    · exact nofun
    · exact nofun

lemma blind_evalOption (default : Value) {e? : Option Expr} (he : x ∉ optionNames e?) :
    Eval.Blind x (evalOption perform default e?) := by
  match e? with
  | none =>
    rw [evalOption]
    exact .pure _
  | some e =>
    rw [evalOption]
    exact e.blind_eval he

lemma blind_evalAll {es : List Expr} (he : x ∉ allNames es) :
    Eval.Blind x (evalAll perform es) := by
  match es with
  | [] =>
    rw [evalAll]
    exact .pure _
  | e :: es =>
    simp only [allNames, List.mem_append, not_or] at he
    rw [evalAll]
    exact (e.blind_eval he.1).bind fun v => (blind_evalAll he.2).bind fun vs => .pure _

lemma blind_evalComparisons (v : Value) {es : List (Relation × Expr)}
    (he : x ∉ comparisonNames es) : Eval.Blind x (evalComparisons perform v es) := by
  match es with
  | [] =>
    rw [evalComparisons]
    exact .pure _
  | (r, e) :: es =>
    simp only [comparisonNames, List.mem_append, not_or] at he
    rw [evalComparisons]
    refine (e.blind_eval he.1).bind fun w => (Eval.Blind.opened v).bind fun a =>
      (Eval.Blind.opened w).bind fun b => (Eval.Blind.lift _).bind fun holds => ?_
    split
    · exact blind_evalComparisons w he.2
    · exact .pure _

lemma blind_evalEntries {es : List (Expr × Expr)} (he : x ∉ entryNames es) :
    Eval.Blind x (evalEntries perform es) := by
  match es with
  | [] =>
    rw [evalEntries]
    exact .pure _
  | (k, v) :: es =>
    simp only [entryNames, List.mem_append, not_or] at he
    rw [evalEntries]
    exact (k.blind_eval he.1.1).bind fun a => (v.blind_eval he.1.2).bind fun b =>
      (blind_evalEntries he.2).bind fun vs => .pure _

lemma blind_evalPositional {args : List Argument} (ha : x ∉ argumentNames args) :
    Eval.Blind x (evalPositional perform args) := by
  match args with
  | [] =>
    rw [evalPositional]
    exact .pure _
  | .positional e :: as =>
    simp only [argumentNames, Argument.names, List.mem_append, not_or] at ha
    rw [evalPositional]
    exact (e.blind_eval ha.1).bind fun v => (blind_evalPositional ha.2).bind fun vs => .pure _
  | .spread e :: as =>
    simp only [argumentNames, Argument.names, List.mem_append, not_or] at ha
    rw [evalPositional]
    refine (e.blind_eval ha.1).bind fun v => (blind_evalPositional ha.2).bind fun vs => ?_
    split
    · exact .pure _
    · exact .throw _
  | .named _ e :: as | .spreadNamed e :: as =>
    simp only [argumentNames, List.mem_append, not_or] at ha
    rw [evalPositional]
    · exact blind_evalPositional ha.2
    · exact nofun
    · exact nofun

lemma blind_evalNamed {args : List Argument} (ha : x ∉ argumentNames args) :
    Eval.Blind x (evalNamed perform args) := by
  match args with
  | [] =>
    rw [evalNamed]
    exact .pure _
  | .named name e :: as =>
    simp only [argumentNames, Argument.names, List.mem_append, not_or] at ha
    rw [evalNamed]
    exact (e.blind_eval ha.1).bind fun v => (blind_evalNamed ha.2).bind fun vs => .pure _
  | .spreadNamed e :: as =>
    simp only [argumentNames, Argument.names, List.mem_append, not_or] at ha
    rw [evalNamed]
    refine (e.blind_eval ha.1).bind fun v => (blind_evalNamed ha.2).bind fun vs => ?_
    split
    · exact .pure _
    · exact .throw _
  | .positional e :: as | .spread e :: as =>
    simp only [argumentNames, List.mem_append, not_or] at ha
    rw [evalNamed]
    · exact blind_evalNamed ha.2
    · exact nofun
    · exact nofun

end

/-! ### Statements -/

mutual

lemma Expr.blind_set (v : Value) {e : Expr} (he : x ∉ e.names) :
    Eval.Blind x (e.set perform v) := by
  match e with
  | .var name =>
    have hname : name ≠ x := by
      rintro rfl
      simp [Expr.names] at he
    rw [Expr.set]
    exact .store hname v
  | .list targets =>
    rw [Expr.set]
    exact (Eval.Blind.unpack v _).bind fun vs => blind_setAll vs he
  | .attribute e name =>
    have heval := e.blind_eval hx hp he
    rw [Expr.set]
    exact heval.bind fun r => .setAttribute r name v
  | .literal _ | .not _ | .negate _ | .binary _ _ _ | .compare _ _ | .choose _ _ _
  | .filter _ _ _ | .test _ _ _ | .item _ _ | .slice _ _ _ _ | .call _ _ | .map _ =>
    rw [Expr.set]
    · exact .pure _
    · exact nofun
    · exact nofun
    · exact nofun

lemma blind_setAll (vs : List Value) {es : List Expr} (he : x ∉ allNames es) :
    Eval.Blind x (setAll perform es vs) := by
  match es, vs with
  | e :: es, v :: vs =>
    simp only [allNames, List.mem_append, not_or] at he
    rw [setAll]
    exact (e.blind_set v he.1).bind fun _ => blind_setAll vs he.2
  | [], _ =>
    rw [setAll]
    · exact .pure _
    · exact nofun
  | _ :: _, [] =>
    rw [setAll]
    · exact .pure _
    · exact nofun

end

omit hx hp in
/-- What a loop shows of itself does not have the name either. -/
lemma Eval.Blind.enterItem {running : Running} (hagain : ∀ form ∈ running.again?, x ∉ form.names) :
    Eval.Blind x (modify fun m =>
      match m.frames with
      | [] => m
      | f :: fs => { m with frames := { f with loop? := some running } :: fs }) := by
  refine .update (fun m => ((), match m.frames with
    | [] => m
    | f :: fs => { m with frames := { f with loop? := some running } :: fs })) (fun _ => rfl)
    (fun m v o => ?_) fun m hm => ?_
  · cases hf : m.frames with
    | nil => simp [Machine.twin, hf]
    | cons f fs => simp [Machine.twin, hf, Frame.twin]
  · cases hf : m.frames with
    | nil => exact .refl hm
    | cons f fs =>
      have hl := hm.loops
      rw [hf, List.forall_mem_cons] at hl
      refine ⟨⟨hm.blocks, hm.routines, List.forall_mem_cons.2 ⟨?_, hl.2⟩⟩, ?_, rfl⟩
      · rintro r hr
        cases hr
        exact hagain
      · simp [hf]

omit hx hp in
lemma Eval.Blind.pipe (v : Value) :
    Eval.Blind x (modify fun m => { m with piped := v } : Eval Unit) :=
  .update (fun m => ((), { m with piped := v })) (fun _ => rfl) (fun _ _ _ => rfl)
    fun _ hm => ⟨⟨hm.blocks, hm.routines, hm.loops⟩, rfl, rfl⟩

omit hx hp in
/-- Escaping holds for the body alone. -/
lemma Eval.Blind.escaped (escaping : Bool) {body : Eval Unit} (hb : Eval.Blind x body) :
    Eval.Blind x (do
      let outer := (← get).escaping
      modify fun m => { m with escaping }
      body
      modify fun m => { m with escaping := outer }) := by
  refine .bracket hb (fun _ => false) .invalidOperation (fun m => { m with escaping })
    (fun m p => (p.1, { p.2 with escaping := m.escaping })) (fun m => ?_) (fun _ _ _ => rfl)
    (fun m hm => ⟨hm.blocks, hm.routines, hm.loops⟩) (fun m v o => ⟨o, rfl, fun p => rfl⟩)
    fun m p hm hp => ⟨⟨hp.avoids.blocks, hp.avoids.routines, hp.avoids.loops⟩, hp.values, rfl⟩
  simp only [StateT.run_bind, StateT.run_get, StateT.run_modify, pure_bind]
  cases body.run { m with escaping } <;> rfl

omit hx hp in
lemma not_mem_of_mem_entries {es : List (Expr × Expr)} (h : x ∉ entryNames es) {e : Expr × Expr}
    (he : e ∈ es) : x ∉ e.1.names ∧ x ∉ e.2.names := by
  induction es with
  | nil => cases he
  | cons k es ih =>
    simp only [entryNames, List.mem_append, not_or] at h
    rcases List.mem_cons.1 he with rfl | he
    · exact h.1
    · exact ih h.2 he

omit hx hp in
lemma blind_runLoop {again? : Option LoopForm} (hagain : ∀ form ∈ again?, x ∉ form.names)
    {set : Value → Eval Unit} (hset : ∀ v, Eval.Blind x (set v)) {body : Eval Unit}
    (hbody : Eval.Blind x body) (items : Value) :
    Eval.Blind x (runLoop again? set body items) := by
  refine (Eval.Blind.opened items).bind fun v => (Eval.Blind.lift _).bind fun vs => ?_
  refine .get_bind (fun m _ => ?_) fun m v o => by rw [Machine.twin_running?, Machine.twin_loops]
  refine Eval.Blind.bind ?_ fun _ => Eval.Blind.bind (.inFrame (by simp) rfl ?_) fun _ => .pure _
  · exact .update (fun m => ((), { m with loops := m.loops + 1 })) (fun _ => rfl) (fun _ _ _ => rfl)
      fun _ hm => ⟨⟨hm.blocks, hm.routines, hm.loops⟩, rfl, rfl⟩
  · refine (Eval.Blind.forIn_unit (fun c _ u => ?_) PUnit.unit).bind fun _ => .pure _
    exact (Eval.Blind.enterItem hagain).bind fun _ => (hset _).bind fun _ =>
      hbody.bind fun _ => .pure _

omit hx hp in
lemma blind_passing {set : Value → Eval Unit} (hset : ∀ v, Eval.Blind x (set v))
    {condition : Eval Value} (hcondition : Eval.Blind x condition) (items : Value) :
    Eval.Blind x (passing set condition items) := by
  refine (Eval.Blind.opened items).bind fun v => (Eval.Blind.lift _).bind fun vs => ?_
  refine .inFrame (by simp) rfl ((Eval.Blind.filterM fun v => ?_).bind fun kept => .pure _)
  exact (hset v).bind fun _ => hcondition.bind fun w => .lift _

mutual

lemma Statement.blind_exec {s : Statement} (hs : x ∉ s.names) :
    Eval.Blind x (s.exec perform) := by
  match s with
  | .copy t =>
    rw [Statement.exec]
    exact .write t
  | .emit e =>
    rw [Statement.exec]
    exact (e.blind_eval hx hp hs).bind fun v => .emit v
  | .loop target items filter? recursive body orElse =>
    simp only [Statement.names, List.mem_append, not_or] at hs
    obtain ⟨⟨⟨⟨htarget, hitems⟩, hfilter⟩, hbody⟩, helse⟩ := hs
    have hset (v : Value) := target.blind_set hx hp v htarget
    have hagain : ∀ form ∈ (if recursive then some ⟨target, body⟩ else none : Option LoopForm),
        x ∉ form.names := by
      intro form hform
      split at hform
      · cases hform
        simpa [LoopForm.names] using ⟨htarget, hbody⟩
      · cases hform
    have hrest (v : Value) : Eval.Blind x (do
        let ran ← runLoop (if recursive then some ⟨target, body⟩ else none) (target.set perform)
          (execAll perform body) v
        if ran then return () else execAll perform orElse) := by
      refine (blind_runLoop hagain hset (blind_execAll hbody) v).bind fun ran => ?_
      split
      · exact .pure _
      · exact blind_execAll helse
    rw [Statement.exec]
    cases filter? with
    | some condition =>
      have hcondition := condition.blind_eval hx hp hfilter
      exact (items.blind_eval hx hp hitems).bind fun v =>
        (blind_passing hset hcondition v).bind hrest
    | none =>
      exact (items.blind_eval hx hp hitems).bind fun v => (Eval.Blind.pure v).bind hrest
  | .branch condition yes no =>
    simp only [Statement.names, List.mem_append, not_or] at hs
    rw [Statement.exec]
    refine (condition.blind_eval hx hp hs.1.1).bind fun v => (Eval.Blind.lift _).bind fun b => ?_
    split
    · exact blind_execAll hs.1.2
    · exact blind_execAll hs.2
  | .scope assignments body =>
    simp only [Statement.names, List.mem_append, not_or] at hs
    rw [Statement.exec]
    refine .inFrame (by simp) rfl ((Eval.Blind.forIn_unit (fun (target, value) ha u => ?_)
      PUnit.unit).bind fun _ => blind_execAll hs.2)
    obtain ⟨htarget, hvalue⟩ := not_mem_of_mem_entries hs.1 ha
    exact (value.blind_eval hx hp hvalue).bind fun v =>
      (target.blind_set hx hp v htarget).bind fun _ => .pure _
  | .assign target value =>
    simp only [Statement.names, List.mem_append, not_or] at hs
    rw [Statement.exec]
    exact (value.blind_eval hx hp hs.2).bind fun v => target.blind_set hx hp v hs.1
  | .capture target filter? body =>
    simp only [Statement.names, List.mem_append, not_or] at hs
    have hset (v : Value) := target.blind_set hx hp v hs.1.1
    rw [Statement.exec]
    cases filter? with
    | some filter =>
      exact (Eval.Blind.captured (blind_execAll hs.2)).bind fun v =>
        ((Eval.Blind.pipe v).bind fun _ => filter.blind_eval hx hp hs.1.2).bind hset
    | none =>
      exact (Eval.Blind.captured (blind_execAll hs.2)).bind fun v => (Eval.Blind.pure v).bind hset
  | .escape mode body =>
    simp only [Statement.names, List.mem_append, not_or] at hs
    rw [Statement.exec]
    exact (mode.blind_eval hx hp hs.1).bind fun v => (Eval.Blind.escapeMode v).bind fun b =>
      .escaped b (blind_execAll hs.2)
  | .filtered filter body =>
    simp only [Statement.names, List.mem_append, not_or] at hs
    rw [Statement.exec]
    exact (Eval.Blind.captured (blind_execAll hs.2)).bind fun v => (Eval.Blind.pipe v).bind
      fun _ => (filter.blind_eval hx hp hs.1).bind fun w => .emit w
  | .block name _ =>
    rw [Statement.exec]
    exact .block hp name
  | .requiredBlock _ =>
    rw [Statement.exec]
    exact .throw _
  | .importAs source target =>
    simp only [Statement.names, List.mem_append, not_or] at hs
    rw [Statement.exec]
    refine (Eval.Blind.inFrame (by simp) rfl ?_).bind fun _ => target.blind_set hx hp _ hs.2
    exact (source.blind_eval hx hp hs.1).bind fun v => .includeText v false
  | .importFrom source names =>
    simp only [Statement.names, List.mem_append, not_or] at hs
    have hnames : ∀ n ∈ names, n.1 ≠ x ∧ n.2.getD n.1 ≠ x := by
      rintro n hn
      constructor
      · rintro rfl
        exact hs.2 (List.mem_flatMap.2 ⟨n, hn, by simp⟩)
      · rintro rfl
        exact hs.2 (List.mem_flatMap.2 ⟨n, hn, by simp⟩)
    rw [Statement.exec]
    refine (Eval.Blind.inFrame (by simp) rfl ?_).bind fun vs =>
      (Eval.Blind.forIn_unit (fun c hc u => ?_) PUnit.unit).bind fun _ => .pure _
    · refine (source.blind_eval hx hp hs.1).bind fun v =>
        (Eval.Blind.includeText v false).bind fun _ => .mapM fun n hn => ?_
      exact (Eval.Blind.lookup? (hnames n hn).1).bind fun _ => .pure _
    · exact (Eval.Blind.store (hnames c.1 (List.of_mem_zip hc).1).2 c.2).bind fun _ => .pure _
  | .extend parent =>
    rw [Statement.exec]
    exact (parent.blind_eval hx hp hs).bind fun v => .extendText v
  | .include source ignoreMissing =>
    rw [Statement.exec]
    exact (source.blind_eval hx hp hs).bind fun v => .includeText v ignoreMissing
  | .define r =>
    simp only [Statement.names, List.mem_cons, not_or] at hs
    rw [Statement.exec]
    exact (Eval.Blind.routine hs.2).bind fun v => .store (Ne.symm hs.1) v
  | .callWith callee args r =>
    simp only [Statement.names, List.mem_append, not_or] at hs
    have hargs := blind_evalArguments (blind_evalPositional hx hp hs.1.2)
      (blind_evalNamed hx hp hs.1.2)
    rw [Statement.exec]
    refine (callee.blind_evalCall hx hp hs.1.1 (callee.blind_eval hx hp hs.1.1) ?_).bind
      fun v => .emit v
    exact hargs.bind fun a => (Eval.Blind.routine hs.2).bind fun v => .pure _
  | .run callee args =>
    simp only [Statement.names, List.mem_append, not_or] at hs
    have hargs := blind_evalArguments (blind_evalPositional hx hp hs.2)
      (blind_evalNamed hx hp hs.2)
    rw [Statement.exec]
    exact (callee.blind_evalCall hx hp hs.1 (callee.blind_eval hx hp hs.1) hargs).bind
      fun _ => .pure _

lemma blind_execAll {ss : List Statement} (hs : x ∉ statementNames ss) :
    Eval.Blind x (execAll perform ss) := by
  match ss with
  | [] =>
    rw [execAll]
    exact .pure _
  | s :: ss =>
    simp only [statementNames, List.mem_append, not_or] at hs
    rw [execAll]
    exact (s.blind_exec hs.1).bind fun _ => blind_execAll hs.2

end

lemma blind_execParameters {ps : List (String × Value × Option Expr)}
    (hps : ∀ p ∈ ps, p.1 ≠ x ∧ x ∉ optionNames p.2.2) :
    Eval.Blind x (execParameters perform ps) := by
  induction ps with
  | nil =>
    rw [execParameters]
    exact .pure _
  | cons p ps ih =>
    obtain ⟨name, v, default?⟩ := p
    obtain ⟨⟨hname, hdefault⟩, hps⟩ := List.forall_mem_cons.1 hps
    unfold execParameters
    refine (ih hps).bind fun _ => ?_
    split
    · next e =>
      exact (e.blind_eval hx hp hdefault).bind fun w => .store hname w
    · exact .store hname _

end

lemma not_mem_of_mem_allNames {x : String} {es : List Expr} (h : x ∉ allNames es) {e : Expr}
    (he : e ∈ es) : x ∉ e.names := by
  induction es with
  | nil => cases he
  | cons k es ih =>
    simp only [allNames, List.mem_append, not_or] at h
    rcases List.mem_cons.1 he with rfl | he
    · exact h.1
    · exact ih h.2 he

lemma Routine.not_mem_withValues {x : String} {r : Routine} (hr : x ∉ r.names) (vs : List Value) :
    ∀ p ∈ r.withValues vs, p.1 ≠ x ∧ x ∉ optionNames p.2.2 := by
  obtain ⟨name, params, defaults, body⟩ := r
  simp only [Routine.names, List.mem_append, not_or] at hr
  intro p hp
  obtain ⟨hparam, hrest⟩ := List.of_mem_zip hp
  refine ⟨by rintro rfl; exact hr.1.1 hparam, ?_⟩
  have hdefault := (List.of_mem_zip hrest).2
  rcases List.mem_append.1 hdefault with hnone | hsome
  · rw [List.eq_of_mem_replicate hnone]
    simp [optionNames]
  · obtain ⟨e, he, heq⟩ := List.mem_map.1 hsome
    rw [← heq]
    exact not_mem_of_mem_allNames hr.1.2 he

/-- However deep the calls nest, a part of the text that does not have the name is blind to it. -/
lemma blind_perform {x : String} (hx : x ≠ "caller") (fuel : ℕ) {t : Task} (ht : x ∉ t.names) :
    Eval.Blind x (perform fuel t) := by
  induction fuel generalizing t with
  | zero => exact .throw _
  | succ fuel ih =>
    cases t with
    | routine r vs =>
      refine (blind_execParameters hx (fun t => ih) (r.not_mem_withValues ht vs)).bind fun _ => ?_
      refine blind_execAll hx (fun t => ih) ?_
      obtain ⟨name, params, defaults, body⟩ := r
      simp only [Task.names, Routine.names, List.mem_append, not_or] at ht
      exact ht.2
    | statements body => exact blind_execAll hx (fun t => ih) ht
    | loop form items =>
      simp only [Task.names, LoopForm.names, List.mem_append, not_or] at ht
      refine (blind_runLoop ?_ (fun v => form.target.blind_set hx (fun t => ih) v ht.1)
        (blind_execAll hx (fun t => ih) ht.2) items).bind fun _ => .pure _
      rintro f hf
      cases hf
      simpa [LoopForm.names] using ht

/-! ### Rendering -/

section

variable {x : String}

mutual

lemma Statement.not_mem_of_mem_blocks {s : Statement} (hs : x ∉ s.names)
    {b : String × List Statement} (hb : b ∈ s.blocks) : x ∉ statementNames b.2 := by
  match s with
  | .loop target items filter? _ body orElse =>
    simp only [Statement.names, List.mem_append, not_or] at hs
    rcases List.mem_append.1 hb with hb | hb
    · exact not_mem_of_mem_allBlocks hs.1.2 hb
    · exact not_mem_of_mem_allBlocks hs.2 hb
  | .branch condition yes no =>
    simp only [Statement.names, List.mem_append, not_or] at hs
    rcases List.mem_append.1 hb with hb | hb
    · exact not_mem_of_mem_allBlocks hs.1.2 hb
    · exact not_mem_of_mem_allBlocks hs.2 hb
  | .scope _ body | .capture _ _ body | .escape _ body | .filtered _ body =>
    simp only [Statement.names, List.mem_append, not_or] at hs
    exact not_mem_of_mem_allBlocks hs.2 hb
  | .block name body =>
    rcases List.mem_cons.1 hb with rfl | hb
    · exact hs
    · exact not_mem_of_mem_allBlocks hs hb
  | .requiredBlock name =>
    rw [Statement.blocks, List.mem_singleton] at hb
    subst hb
    exact List.not_mem_nil
  | .copy _ | .emit _ | .assign _ _ | .importAs _ _ | .importFrom _ _ | .extend _ | .include _ _
  | .define _ | .callWith _ _ _ | .run _ _ => cases hb

lemma not_mem_of_mem_allBlocks {ss : List Statement} (hs : x ∉ statementNames ss)
    {b : String × List Statement} (hb : b ∈ allBlocks ss) : x ∉ statementNames b.2 := by
  match ss with
  | [] => cases hb
  | s :: ss =>
    simp only [statementNames, List.mem_append, not_or] at hs
    rcases List.mem_append.1 hb with hb | hb
    · exact s.not_mem_of_mem_blocks hs.1 hb
    · exact not_mem_of_mem_allBlocks hs.2 hb

end

/-- The values are those of `base`, but for that of `x`. -/
def IsVariant (x t : String) (base values : Labels) : Prop :=
  values.entries = base.entries.map fun e => if e.1 = x then (x, t) else e

variable {t : String} {base values : Labels}

lemma IsVariant.map_ofText (h : IsVariant x t base values) :
    (values.entries.map fun (k, v) => (k, Value.ofText v)) =
      Names.twin x (.ofText t) (base.entries.map fun (k, v) => (k, Value.ofText v)) := by
  rw [h, Names.twin, List.map_map, List.map_map]
  refine List.map_congr_left fun e _ => ?_
  by_cases he : e.1 = x <;> simp [he]

/-- With other values of one name, a text is rendered by twins. -/
lemma IsVariant.start_eq (h : IsVariant x t base values) (ss : List Statement) :
    Machine.start values ss = (Machine.start base ss).twin x (.ofText t) "" := by
  simp only [Machine.start, h.map_ofText, Machine.twin, Frame.twin, List.map_cons, List.map_nil]
  rfl

lemma Machine.avoids_start {ss : List Statement}
    (hblocks : ∀ b ∈ allBlocks ss, x ∉ statementNames b.2) (values : Labels) :
    (Machine.start values ss).Avoids x :=
  ⟨hblocks, nofun, by simp [Machine.start]⟩

/-- **Unseen names have no influence**: a text that does not have a name renders alike, or fails
alike, for all values of the name. -/
theorem renderStatements_of_not_mem (hx : x ≠ "caller") {ss : List Statement}
    (hs : x ∉ statementNames ss) (h : IsVariant x t base values) :
    renderStatements ss values = renderStatements ss base := by
  have havoids := Machine.avoids_start (fun b hb => not_mem_of_mem_allBlocks hs hb) base
  obtain ⟨htwin, -⟩ := blind_execAll hx (fun t => blind_perform hx _) hs _ havoids
  rw [renderStatements, renderStatements, h.start_eq, htwin]
  cases (execAll (perform (maxDepth + 2)) ss).run (Machine.start base ss) with
  | error e => rfl
  | ok p => simp [Except.map, Machine.twin, bind, Except.bind, pure, Except.pure]

end

end BurnRate.Expression
