import BurnRate.Expression.Function
import BurnRate.Proofs.TextNames

/-!
Actions that a name has no influence on.

Two machines are twins if they differ at most in the value of one name and in what was written
before. An action that is blind to the name takes twins to twins, with the same answer.
-/

namespace BurnRate.Expression

/-! ### Twins -/

namespace Names

/-- The names with another value of `x`, where `x` is among them. -/
def twin (x : String) (v : Value) (ns : Names) : Names :=
  ns.map fun e => if e.1 = x then (x, v) else e

variable {x k : String} {v : Value}

lemma twin_of_not_mem {ns : Names} (h : ∀ e ∈ ns, e.1 ≠ x) : ns.twin x v = ns := by
  unfold twin
  conv_rhs => rw [← List.map_id ns]
  exact List.map_congr_left fun e he => if_neg (h e he)

lemma lookup_twin_of_ne (hk : k ≠ x) (ns : Names) : (ns.twin x v).lookup k = ns.lookup k := by
  induction ns with
  | nil => rfl
  | cons e ns ih =>
    obtain ⟨n, w⟩ := e
    by_cases hn : n = x
    · have hb : (k == x) = false := by simpa using hk
      subst hn
      simpa [twin, List.lookup_cons, hb] using ih
    · simp only [twin, List.map_cons, if_neg hn, List.lookup_cons]
      split
      · rfl
      · exact ih

lemma lookup_twin_self (ns : Names) :
    (ns.twin x v).lookup x = (ns.lookup x).map fun _ => v := by
  induction ns with
  | nil => rfl
  | cons e ns ih =>
    obtain ⟨n, w⟩ := e
    by_cases hn : n = x
    · subst hn
      simp [twin]
    · have hb : (x == n) = false := by simpa using Ne.symm hn
      simpa [twin, List.lookup_cons, hn, hb] using ih

lemma twin_insert (hk : k ≠ x) (ns : Names) (w : Value) :
    (ns.insert k w).twin x v = (ns.twin x v).insert k w := by
  have hkey : (fun e : String × Value => e.1 != k) ∘ (fun e => if e.1 = x then (x, v) else e) =
      fun e => e.1 != k := by
    funext e
    by_cases he : e.1 = x <;> simp [he]
  simp only [insert, twin, List.map_cons, if_neg hk, List.filter_map, hkey]

end Names

/-- The frame with another value of `x`, where it has `x`. -/
def Frame.twin (x : String) (v : Value) (f : Frame) : Frame :=
  { f with names := f.names.twin x v }

/-- The machine with another value of `x` in its frames, after another text. -/
def Machine.twin (x : String) (v : Value) (o : String) (m : Machine) : Machine :=
  { m with frames := m.frames.map (Frame.twin x v), out := o ++ m.out }

namespace Machine

variable {x k : String} (v : Value) (o : String) (m : Machine)

@[simp] lemma twin_depth : (m.twin x v o).depth = m.depth := by
  simp [depth, twin]

@[simp] lemma twin_closures : (m.twin x v o).closures = m.closures := rfl
@[simp] lemma twin_routines : (m.twin x v o).routines = m.routines := rfl
@[simp] lemma twin_records : (m.twin x v o).records = m.records := rfl
@[simp] lemma twin_loops : (m.twin x v o).loops = m.loops := rfl
@[simp] lemma twin_lastAsked : (m.twin x v o).lastAsked = m.lastAsked := rfl
@[simp] lemma twin_escaping : (m.twin x v o).escaping = m.escaping := rfl
@[simp] lemma twin_blocks : (m.twin x v o).blocks = m.blocks := rfl
@[simp] lemma twin_piped : (m.twin x v o).piped = m.piped := rfl

@[simp] lemma twin_running? : (m.twin x v o).running? = m.running? := by
  simp only [running?, twin, List.findSome?_map]
  rfl

lemma twin_lookup? (hk : k ≠ x) : (m.twin x v o).lookup? k = m.lookup? k := by
  have hframe (f : Frame) : (m.twin x v o).inFrame? (f.twin x v) k = m.inFrame? f k := by
    simp only [inFrame?, Frame.twin, Names.lookup_twin_of_ne hk]
    rfl
  have hframes : (m.twin x v o).frames.findSome? ((m.twin x v o).inFrame? · k) =
      m.frames.findSome? (m.inFrame? · k) := by
    change (m.frames.map (Frame.twin x v)).findSome? _ = _
    rw [List.findSome?_map]
    exact congrArg (m.frames.findSome? ·) (funext hframe)
  rw [lookup?, lookup?, hframes]

lemma twin_store (hk : k ≠ x) (w : Value) :
    (m.twin x v o).store k w = (m.store k w).twin x v o := by
  cases hf : m.frames with
  | nil => simp [store, twin, hf]
  | cons f fs => simp [store, twin, hf, Frame.twin, Names.twin_insert hk]

lemma twin_enclose {names : List String} (hx : x ∉ names) :
    (m.twin x v o).enclose names = (m.enclose names).twin x v o := by
  -- what is captured is looked up by names other than `x`
  have hcapture (m : Machine) (held : Names) :
      names.foldl (fun held n => if (held.lookup n).isSome then held
        else (n, ((m.twin x v o).lookup? n).getD .nothing) :: held) held =
      names.foldl (fun held n => if (held.lookup n).isSome then held
        else (n, (m.lookup? n).getD .nothing) :: held) held := by
    refine List.foldl_ext _ _ held fun held n hn => ?_
    rw [twin_lookup? v o m (by rintro rfl; exact hx hn)]
  cases hf : m.frames with
  | nil => simp [enclose, twin, hf]
  | cons f fs =>
    have hft : (m.twin x v o).frames = f.twin x v :: fs.map (Frame.twin x v) := by
      simp [twin, hf]
    by_cases hnames : names.isEmpty
    · simp [enclose, hf, hft, hnames]
    · simp only [enclose, hf, hft, hnames, Bool.false_eq_true, if_false]
      cases hc : f.closure? with
      | some id =>
        have hct : (f.twin x v).closure? = some id := hc
        simp only [hct, hcapture m]
        rfl
      | none =>
        have hct : (f.twin x v).closure? = none := hc
        let n : Machine :=
          { m with
            closures := m.closures ++ [[]]
            frames := { f with closure? := some m.closures.length } :: fs }
        have hn : { m.twin x v o with
              closures := m.closures ++ [[]]
              frames := { f.twin x v with closure? := some m.closures.length } ::
                fs.map (Frame.twin x v) } = n.twin x v o := rfl
        simp only [hct, twin_closures, hn, hcapture n]
        rfl

end Machine

/-! ### What a machine refers to -/

def LoopForm.names (form : LoopForm) : List String :=
  form.target.names ++ statementNames form.body

def Task.names : Task → List String
  | routine r _ => r.names
  | statements body => statementNames body
  | loop form _ => form.names

namespace Machine

/-- No part of the text that the machine refers to has the name. -/
structure Avoids (x : String) (m : Machine) : Prop where
  blocks : ∀ b ∈ m.blocks, x ∉ statementNames b.2
  routines : ∀ r ∈ m.routines, x ∉ r.1.names
  loops : ∀ f ∈ m.frames, ∀ running ∈ f.loop?, ∀ form ∈ running.again?, x ∉ form.names

/-- Behind an action, the frames have the same values of the name as before it. -/
structure Keeps (x : String) (m n : Machine) : Prop where
  avoids : n.Avoids x
  values : n.frames.map (·.names.lookup x) = m.frames.map (·.names.lookup x)
  escaping : n.escaping = m.escaping

variable {x : String} {m n k : Machine}

lemma Keeps.refl (h : m.Avoids x) : m.Keeps x m := ⟨h, rfl, rfl⟩

lemma Avoids.keeps_store (h : m.Avoids x) {k : String} (hk : k ≠ x) (w : Value) :
    m.Keeps x (m.store k w) := by
  cases hf : m.frames with
  | nil =>
    have hs : m.store k w = m := by simp [store, hf]
    rw [hs]
    exact .refl h
  | cons f fs =>
    have hl := h.loops
    rw [hf, List.forall_mem_cons] at hl
    refine ⟨⟨?_, ?_, ?_⟩, ?_, ?_⟩
    · simpa [store, hf] using h.blocks
    · simpa [store, hf] using h.routines
    · simp only [store, hf]
      exact List.forall_mem_cons.2 hl
    · simp [store, hf, Names.lookup_insert_of_ne f.names w hk.symm]
    · simp [store, hf]

lemma Avoids.keeps_enclose (h : m.Avoids x) (names : List String) :
    m.Keeps x (m.enclose names) := by
  cases hf : m.frames with
  | nil =>
    have hs : m.enclose names = m := by simp [enclose, hf]
    rw [hs]
    exact .refl h
  | cons f fs =>
    have hl := h.loops
    rw [hf, List.forall_mem_cons] at hl
    simp only [enclose, hf]
    split
    · exact .refl h
    · split
      · refine ⟨⟨h.blocks, h.routines, h.loops⟩, ?_, rfl⟩
        simp
      · refine ⟨⟨h.blocks, h.routines, List.forall_mem_cons.2 hl⟩, ?_, rfl⟩
        simp [hf]

lemma Keeps.trans (h : m.Keeps x n) (h' : n.Keeps x k) : m.Keeps x k :=
  ⟨h'.avoids, h'.values.trans h.values, h'.escaping.trans h.escaping⟩

end Machine

/-! ### Blind actions -/

/-- Between twins, the name makes no difference to the action. -/
def Eval.Blind {α : Type} (x : String) (a : Eval α) : Prop :=
  ∀ m : Machine, m.Avoids x →
    (∀ v o, a.run (m.twin x v o) = (a.run m).map fun p => (p.1, p.2.twin x v o)) ∧
      ∀ p, a.run m = .ok p → m.Keeps x p.2

namespace Eval.Blind

variable {α β : Type} {x : String}

lemma pure (a : α) : Blind x (Pure.pure a : Eval α) := by
  refine fun m hm => ⟨fun _ _ => rfl, fun p hp => ?_⟩
  cases hp
  exact .refl hm

lemma lift (a : Answer α) : Blind x (liftM a : Eval α) := by
  cases a with
  | ok a => exact pure a
  | error e => exact fun _ _ => ⟨fun _ _ => rfl, nofun⟩

lemma throw (c : Cause) : Blind x (throw c : Eval α) :=
  fun _ _ => ⟨fun _ _ => rfl, nofun⟩

lemma bind {a : Eval α} {f : α → Eval β} (ha : Blind x a) (hf : ∀ r, Blind x (f r)) :
    Blind x (a >>= f) := by
  intro m hm
  obtain ⟨htwin, hkeeps⟩ := ha m hm
  cases hrun : a.run m with
  | error e =>
    refine ⟨fun v o => ?_, fun p hp => ?_⟩
    · rw [StateT.run_bind, StateT.run_bind, htwin, hrun]
      rfl
    · rw [StateT.run_bind, hrun] at hp
      cases hp
  | ok q =>
    have hq := hkeeps q hrun
    obtain ⟨htwin', hkeeps'⟩ := hf q.1 q.2 hq.avoids
    refine ⟨fun v o => ?_, fun p hp => ?_⟩
    · rw [StateT.run_bind, StateT.run_bind, htwin, hrun]
      exact htwin' v o
    · rw [StateT.run_bind, hrun] at hp
      exact hq.trans (hkeeps' p hp)

/-- Reading the machine, as far as twins agree. -/
lemma get_bind {k : Machine → Eval β} (hk : ∀ m, m.Avoids x → Blind x (k m))
    (htwin : ∀ m v o, k (m.twin x v o) = k m) : Blind x (get >>= k) := by
  intro m hm
  obtain ⟨htwin', hkeeps⟩ := hk m hm m hm
  refine ⟨fun v o => ?_, hkeeps⟩
  change (k (m.twin x v o)).run (m.twin x v o) = _
  rw [htwin]
  exact htwin' v o

/-- An action that cannot fail and changes the machine as twins allow. -/
lemma update {a : Eval α} (g : Machine → α × Machine) (hrun : ∀ m, a.run m = .ok (g m))
    (htwin : ∀ m v o, g (m.twin x v o) = ((g m).1, (g m).2.twin x v o))
    (hkeeps : ∀ m : Machine, m.Avoids x → m.Keeps x (g m).2) : Blind x a := by
  intro m hm
  refine ⟨fun v o => ?_, fun p hp => ?_⟩
  · rw [hrun, hrun, htwin]
    rfl
  · rw [hrun] at hp
    cases hp
    exact hkeeps m hm

/-- An action between the entrance into a machine and the return from it; some machines may not be
entered. -/
lemma bracket {a : Eval α} {b : Eval β} (hb : Blind x b) (full : Machine → Bool) (c : Cause)
    (enter : Machine → Machine) (leave : Machine → β × Machine → α × Machine)
    (hrun : ∀ m, a.run m = if full m then .error c else (b.run (enter m)).map (leave m))
    (hfull : ∀ m v o, full (m.twin x v o) = full m)
    (havoids : ∀ m, m.Avoids x → (enter m).Avoids x)
    (htwin : ∀ m v o, ∃ o', enter (m.twin x v o) = (enter m).twin x v o' ∧
      ∀ p, leave (m.twin x v o) (p.1, p.2.twin x v o') =
        ((leave m p).1, (leave m p).2.twin x v o))
    (hkeeps : ∀ m p, m.Avoids x → (enter m).Keeps x p.2 → m.Keeps x (leave m p).2) :
    Blind x a := by
  intro m hm
  obtain ⟨hbt, hbk⟩ := hb (enter m) (havoids m hm)
  refine ⟨fun v o => ?_, fun p hp => ?_⟩
  · obtain ⟨o', henter, hleave⟩ := htwin m v o
    rw [hrun, hrun, hfull, henter, hbt]
    split
    · rfl
    · cases b.run (enter m) with
      | error e => rfl
      | ok p => exact congrArg Except.ok (hleave p)
  · rw [hrun] at hp
    split at hp
    · cases hp
    · cases hbrun : b.run (enter m) with
      | error e =>
        rw [hbrun] at hp
        cases hp
      | ok q =>
        rw [hbrun] at hp
        cases hp
        exact hkeeps m q hm (hbk q hbrun)

/-! ### Repetition -/

lemma forIn_unit {γ : Type} {l : List γ} {f : γ → PUnit → Eval (ForInStep PUnit)}
    (hf : ∀ c ∈ l, ∀ u, Blind x (f c u)) (u : PUnit) : Blind x (forIn l u f) := by
  induction l generalizing u with
  | nil =>
    rw [List.forIn_nil]
    exact pure u
  | cons c l ih =>
    rw [List.forIn_cons]
    refine (hf c List.mem_cons_self u).bind fun r => ?_
    cases r with
    | done u => exact pure u
    | yield u => exact ih (fun c hc => hf c (List.mem_cons_of_mem _ hc)) u

lemma mapM {γ : Type} {l : List γ} {f : γ → Eval β} (hf : ∀ c ∈ l, Blind x (f c)) :
    Blind x (l.mapM f) := by
  induction l with
  | nil =>
    rw [List.mapM_nil]
    exact pure []
  | cons c l ih =>
    rw [List.mapM_cons]
    exact (hf c List.mem_cons_self).bind fun b =>
      (ih fun c hc => hf c (List.mem_cons_of_mem _ hc)).bind fun bs => pure _

lemma filterM {γ : Type} {l : List γ} {f : γ → Eval Bool} (hf : ∀ c, Blind x (f c)) :
    Blind x (l.filterM f) := by
  have haux (l acc : List γ) : Blind x (List.filterAuxM f l acc) := by
    induction l generalizing acc with
    | nil => exact pure acc
    | cons c l ih =>
      rw [List.filterAuxM]
      exact (hf c).bind fun b => ih _
  exact (haux l []).bind fun r => pure _

/-! ### Names and text -/

lemma lookup? {k : String} (hk : k ≠ x) : Blind x (Eval.lookup? k) := by
  refine get_bind (fun m _ => pure _) fun m v o => ?_
  rw [Machine.twin_lookup? v o m hk]

lemma store {k : String} (hk : k ≠ x) (w : Value) : Blind x (Eval.store k w) := by
  refine update (fun m => ((), m.store k w)) (fun m => rfl) (fun m v o => ?_) fun m hm => ?_
  · rw [Machine.twin_store v o m hk]
  · exact hm.keeps_store hk w

lemma write (s : String) : Blind x (Eval.write s) := by
  refine update (fun m => ((), { m with out := m.out ++ s })) (fun m => rfl) (fun m v o => ?_)
    fun m hm => ⟨⟨hm.blocks, hm.routines, hm.loops⟩, rfl, rfl⟩
  simp [Machine.twin, String.append_assoc]

lemma opened (v : Value) : Blind x (Eval.opened v) := by
  unfold Eval.opened
  split
  · exact get_bind (fun m _ => pure _) fun m v o => rfl
  · exact pure _

lemma emit (v : Value) : Blind x (Eval.emit v) := by
  refine (opened v).bind fun w => ?_
  split
  · exact throw _
  · exact get_bind (fun m _ => write _) fun m v o => rfl

/-! ### Frames -/

lemma captured {body : Eval Unit} (hb : Blind x body) : Blind x (Eval.captured body) := by
  refine bracket hb (fun _ => false) .invalidOperation (fun m => { m with out := "" })
    (fun m p => (.text p.2.out p.2.escaping, { p.2 with out := m.out })) (fun m => ?_)
    (fun _ _ _ => rfl) (fun m hm => ⟨hm.blocks, hm.routines, hm.loops⟩)
    (fun m v o => ⟨"", ?_, fun p => ?_⟩)
    fun m p hm hp =>
      ⟨⟨hp.avoids.blocks, hp.avoids.routines, hp.avoids.loops⟩, hp.values, hp.escaping⟩
  · simp only [Eval.captured, StateT.run_bind, StateT.run_get, StateT.run_modify, pure_bind]
    cases body.run { m with out := "" } <;> rfl
  · simp [Machine.twin]
  · simp [Machine.twin]

/-- A frame that has neither the name nor a loop. -/
lemma inFrame {f : Frame} (hf : ∀ e ∈ f.names, e.1 ≠ x) (hloop : f.loop? = none)
    {body : Eval α} (hb : Blind x body) : Blind x (Eval.inFrame f body) := by
  refine bracket hb (fun m => decide (maxDepth < m.depth)) .invalidOperation
    (fun m => { m with frames := f :: m.frames })
    (fun _ p => (p.1, { p.2 with frames := p.2.frames.drop 1 })) (fun m => ?_)
    (fun m v o => by rw [Machine.twin_depth]) (fun m hm => ?_)
    (fun m v o => ⟨o, ?_, fun p => ?_⟩) fun m p hm hp => ?_
  · simp only [Eval.inFrame, StateT.run_bind, StateT.run_get, pure_bind, decide_eq_true_eq]
    split
    · rfl
    · simp only [StateT.run_bind, StateT.run_modify, pure_bind]
      cases body.run { m with frames := f :: m.frames } <;> rfl
  · refine ⟨hm.blocks, hm.routines, List.forall_mem_cons.2 ⟨?_, hm.loops⟩⟩
    simp [hloop]
  · simp [Machine.twin, Frame.twin, Names.twin_of_not_mem hf]
  · simp [Machine.twin]
  · refine ⟨⟨hp.avoids.blocks, hp.avoids.routines, fun g hg => ?_⟩, ?_, hp.escaping⟩
    · exact hp.avoids.loops g (List.mem_of_mem_drop hg)
    · have hv := congrArg (List.drop 1) hp.values
      simpa [List.map_drop] using hv

/-- A routine sees its own frame and no other. -/
lemma inRoutine {f : Frame} (hf : ∀ e ∈ f.names, e.1 ≠ x) (hloop : f.loop? = none)
    {body : Eval Unit} (hb : Blind x body) : Blind x (Eval.inRoutine f body) := by
  refine bracket (captured hb) (fun m => decide (maxDepth < m.depth + 5)) .invalidOperation
    (fun m => { m with frames := [f], outerDepth := m.depth + 4, blocks := [] })
    (fun m p => (p.1, { p.2 with
      frames := m.frames, outerDepth := m.outerDepth, blocks := m.blocks })) (fun m => ?_)
    (fun m v o => by rw [Machine.twin_depth]) (fun m hm => ?_)
    (fun m v o => ⟨o, ?_, fun p => ?_⟩) fun m p hm hp => ?_
  · simp only [Eval.inRoutine, StateT.run_bind, StateT.run_get, pure_bind, decide_eq_true_eq]
    split
    · rfl
    · simp only [StateT.run_bind, StateT.run_set, pure_bind]
      cases (Eval.captured body).run
        { m with frames := [f], outerDepth := m.depth + 4, blocks := [] } <;> rfl
  · refine ⟨nofun, hm.routines, ?_⟩
    simp [hloop]
  · simp [Machine.twin, Frame.twin, Names.twin_of_not_mem hf, Machine.depth]
  · simp [Machine.twin]
  · exact ⟨⟨hm.blocks, hp.avoids.routines, hm.loops⟩, rfl, hp.escaping⟩

/-! ### Parts and routines -/

lemma routine {r : Routine} (hr : x ∉ r.names) : Blind x (Eval.routine r) := by
  have hx : x ∉ r.freeNames.filter (· != "caller") :=
    fun h => r.not_mem_freeNames hr (List.mem_filter.1 h).1
  let g (m : Machine) : Machine := m.enclose (r.freeNames.filter (· != "caller"))
  refine update (fun m => (.routine (g m).routines.length r.name, { g m with
    routines := (g m).routines ++ [(r, (g m).frames.head?.bind (·.closure?))] })) (fun m => rfl)
    (fun m v o => ?_) fun m hm => ?_
  · have hg : g (m.twin x v o) = (g m).twin x v o := Machine.twin_enclose v o m hx
    have hclosure : ((g m).twin x v o).frames.head?.bind (·.closure?) =
        (g m).frames.head?.bind (·.closure?) := by
      cases hf : (g m).frames <;> simp [Machine.twin, hf, Frame.twin]
    simp only [hg, hclosure]
    rfl
  · have hg := hm.keeps_enclose (r.freeNames.filter (· != "caller"))
    refine ⟨⟨hg.avoids.blocks, fun q hq => ?_, hg.avoids.loops⟩, hg.values, hg.escaping⟩
    rcases List.mem_append.1 hq with hq | hq
    · exact hg.avoids.routines q hq
    · rw [List.mem_singleton] at hq
      exact hq ▸ hr

lemma orNothing (v : Value) (w? : Option Value) : Blind x (match w? with
    | some w => Pure.pure w
    | none =>
      if v.isUndefined then MonadExcept.throw .undefinedValue else Pure.pure .nothing) := by
  split
  · exact pure _
  · split
    · exact throw _
    · exact pure _

lemma part (v key : Value) (found? : Option Value) : Blind x (Eval.part v key found?) :=
  get_bind (fun _ _ => orNothing v _) fun _ _ _ => rfl

lemma setAttribute (v : Value) (name : String) (w : Value) :
    Blind x (Eval.setAttribute v name w) := by
  unfold Eval.setAttribute
  split
  · exact update (fun m => ((), _)) (fun m => rfl) (fun m v o => rfl)
      fun m hm => ⟨⟨hm.blocks, hm.routines, hm.loops⟩, rfl, rfl⟩
  · exact throw _

lemma unpack (v : Value) (n : ℕ) : Blind x (Eval.unpack v n) := by
  have hcount (vs : List Value) : Blind x (if vs.length = n then Pure.pure vs
      else MonadExcept.throw .cannotUnpack : Eval (List Value)) := by
    split
    · exact pure _
    · exact throw _
  cases v with
  | list vs => exact (pure vs).bind hcount
  | map entries _ => exact (pure (entries.map (·.1))).bind hcount
  | _ => exact (throw .cannotUnpack).bind hcount

lemma includeText (v : Value) (ignoreMissing : Bool) :
    Blind x (Eval.includeText v ignoreMissing) := by
  have hend (vs : List Value) : Blind x (if vs.isEmpty || ignoreMissing then Pure.pure ()
      else MonadExcept.throw .templateNotFound : Eval Unit) := by
    split
    · exact pure _
    · exact throw _
  refine (forIn_unit (fun w _ u => ?_) PUnit.unit).bind fun _ => hend _
  split
  · exact pure _
  · exact (throw _).bind fun _ => pure _

lemma extendText (v : Value) : Blind x (Eval.extendText v) := by
  unfold Eval.extendText
  split
  · exact throw _
  · exact throw _

lemma escapeMode (v : Value) : Blind x (Eval.escapeMode v) := by
  unfold Eval.escapeMode
  split
  · exact pure _
  · exact pure _
  · exact throw _
  · exact pure _

end Eval.Blind

end BurnRate.Expression
