import BurnRate.Proofs.BlindTexts
import BurnRate.Proofs.TotalTexts

/-!
Texts in which a name occurs only as a placeholder of its own, and how its value shows.

Between two placeholders of the name, a text is blind to it. So what is rendered is a fixed sequence
of pieces with the value at fixed places in between, and different values show.
-/

namespace BurnRate.Expression

/-- A placeholder that writes the name's value as it is. -/
def Statement.shows (x : String) : Statement → Bool
  | .emit (.var name) => name == x
  | _ => false

lemma Statement.eq_of_shows {x : String} {s : Statement} (h : s.shows x = true) :
    s = .emit (.var x) := by
  unfold shows at h
  split at h
  · next name => rw [beq_iff_eq.1 h]
  · cases h

/-- Each statement writes the value of the name or does not have the name. -/
def IsDirect (x : String) (ss : List Statement) : Prop :=
  ∀ s ∈ ss, s.shows x = true ∨ x ∉ s.names

instance (x : String) (ss : List Statement) : Decidable (IsDirect x ss) :=
  inferInstanceAs (Decidable (∀ s ∈ ss, s.shows x = true ∨ x ∉ s.names))

/-! ### Pieces of a text with gaps -/

/-- The text of pieces, where the value stands for each piece that is missing. -/
def fill (t : String) (pieces : List (Option String)) : List Char :=
  pieces.flatMap fun piece => (piece.getD t).toList

@[simp] lemma fill_nil (t : String) : fill t [] = [] := rfl

@[simp] lemma fill_cons (t : String) (piece : Option String) (pieces : List (Option String)) :
    fill t (piece :: pieces) = (piece.getD t).toList ++ fill t pieces := rfl

lemma length_fill_le {t t' : String} (h : t.length ≤ t'.length) (pieces : List (Option String)) :
    (fill t pieces).length ≤ (fill t' pieces).length := by
  induction pieces with
  | nil => exact le_rfl
  | cons piece pieces ih =>
    cases piece with
    | none =>
      simp only [fill_cons, Option.getD_none, List.length_append, String.length_toList]
      omega
    | some s =>
      simp only [fill_cons, Option.getD_some, List.length_append]
      omega

lemma length_fill_lt {t t' : String} (h : t.length < t'.length) {pieces : List (Option String)}
    (hgap : none ∈ pieces) : (fill t pieces).length < (fill t' pieces).length := by
  induction pieces with
  | nil => cases hgap
  | cons piece pieces ih =>
    cases piece with
    | none =>
      have hle := length_fill_le h.le pieces
      simp only [fill_cons, Option.getD_none, List.length_append, String.length_toList]
      omega
    | some s =>
      have hlt := ih (by simpa using hgap)
      simp only [fill_cons, Option.getD_some, List.length_append]
      omega

/-- Where there is a gap, the filled text tells what it was filled with. -/
lemma fill_injective {pieces : List (Option String)} (hgap : none ∈ pieces) {t t' : String}
    (h : fill t pieces = fill t' pieces) : t = t' := by
  have hlength : t.length = t'.length := by
    have heq := congrArg List.length h
    rcases Nat.lt_trichotomy t.length t'.length with hlt | heq' | hlt
    · have := length_fill_lt hlt hgap
      omega
    · exact heq'
    · have := length_fill_lt hlt hgap
      omega
  induction pieces with
  | nil => cases hgap
  | cons piece pieces ih =>
    cases piece with
    | none =>
      have hlist : t.toList.length = t'.toList.length := by
        rw [String.length_toList, String.length_toList, hlength]
      exact String.toList_injective (List.append_inj h hlist).1
    | some s => exact ih (by simpa using hgap) (List.append_cancel_left h)

/-! ### What a direct text writes -/

namespace Machine

/-- The innermost frame has the name. -/
def Has (m : Machine) (x : String) : Prop :=
  ∃ w, (m.frames.map (·.names.lookup x)).head? = some (some w)

variable {m n : Machine} {x : String}

lemma Keeps.has (h : m.Keeps x n) (hm : m.Has x) : n.Has x := by
  obtain ⟨w, hw⟩ := hm
  exact ⟨w, by rw [h.values, hw]⟩

/-- A twin has the other value in its innermost frame. -/
lemma Has.lookup?_twin (h : m.Has x) (v : Value) (o : String) :
    (m.twin x v o).lookup? x = some v := by
  obtain ⟨w, hw⟩ := h
  cases hf : m.frames with
  | nil => simp [hf] at hw
  | cons f fs =>
    have hlookup : f.names.lookup x = some w := by simpa [hf] using hw
    simp [lookup?, twin, hf, inFrame?, Frame.twin, Names.lookup_twin_self, hlookup]

/-- Text that is written before can as well be counted as written by the twin. -/
lemma twin_wrote (m : Machine) (x : String) (v : Value) (o s : String) :
    (m.twin x v o).wrote s = { m with out := "" }.twin x v (o ++ m.out ++ s) := by
  simp [twin, wrote]

end Machine

/-- **Direct texts are pieces with gaps**: for all values of the name, they fail alike or write the
same pieces around the value. -/
lemma execAll_of_isDirect {x : String} (hx : x ≠ "caller") (fuel : ℕ) {ss : List Statement}
    (hss : IsDirect x ss) {m : Machine} (havoids : m.Avoids x) (hhas : m.Has x)
    (hescaping : m.escaping = false) :
    (∃ c, ∀ t o, (execAll (perform fuel) ss).run (m.twin x (.ofText t) o) = .error c) ∨
      ∃ pieces, ((∃ s ∈ ss, s.shows x = true) → none ∈ pieces) ∧ ∀ t o, ∃ n,
        (execAll (perform fuel) ss).run (m.twin x (.ofText t) o) = .ok ((), n) ∧
        n.out.toList = o.toList ++ fill t pieces := by
  induction ss generalizing m with
  | nil =>
    refine .inr ⟨[some m.out], by simp, fun t o => ⟨m.twin x (.ofText t) o, ?_, ?_⟩⟩
    · rw [execAll]
      rfl
    · simp [Machine.twin]
  | cons s ss ih =>
    obtain ⟨hs, hrest⟩ := List.forall_mem_cons.1 hss
    rcases hs with hs | hs
    · -- the placeholder writes the value and leaves everything else
      obtain rfl := s.eq_of_shows hs
      let m' : Machine := { m with out := "" }
      have hstep (t o : String) :
          (execAll (perform fuel) (.emit (.var x) :: ss)).run (m.twin x (.ofText t) o) =
            (execAll (perform fuel) ss).run (m'.twin x (.ofText t) (o ++ m.out ++ t)) := by
        have hv := yields_var (perform fuel) (hhas.lookup?_twin (.ofText t) o)
        rw [run_execAll_emit (perform fuel) hv rfl, ← Machine.twin_wrote]
        simp [hescaping, Value.ofText, Value.toText]
      have havoids' : m'.Avoids x := ⟨havoids.blocks, havoids.routines, havoids.loops⟩
      rcases ih hrest havoids' hhas hescaping with ⟨c, hc⟩ | ⟨pieces, -, hpieces⟩
      · exact .inl ⟨c, fun t o => (hstep t o).trans (hc t _)⟩
      · refine .inr ⟨some m.out :: none :: pieces, by simp, fun t o => ?_⟩
        obtain ⟨n, hrun, hout⟩ := hpieces t (o ++ m.out ++ t)
        refine ⟨n, (hstep t o).trans hrun, ?_⟩
        rw [hout]
        simp
    · -- the statement is blind to the name
      obtain ⟨htwin, hkeeps⟩ :=
        Statement.blind_exec hx (fun t => blind_perform hx fuel) hs m havoids
      cases hrun : (s.exec (perform fuel)).run m with
      | error c =>
        refine .inl ⟨c, fun t o => ?_⟩
        rw [execAll, StateT.run_bind, htwin, hrun]
        rfl
      | ok p =>
        have hp := hkeeps p hrun
        have hstep (t o : String) :
            (execAll (perform fuel) (s :: ss)).run (m.twin x (.ofText t) o) =
              (execAll (perform fuel) ss).run (p.2.twin x (.ofText t) o) := by
          rw [execAll, StateT.run_bind, htwin, hrun]
          rfl
        rcases ih hrest hp.avoids (hp.has hhas) (hp.escaping.trans hescaping) with
          ⟨c, hc⟩ | ⟨pieces, hgap, hpieces⟩
        · exact .inl ⟨c, fun t o => (hstep t o).trans (hc t o)⟩
        · refine .inr ⟨pieces, ?_, fun t o => ?_⟩
          · rintro ⟨s', hs', hshows⟩
            rcases List.mem_cons.1 hs' with rfl | hs'
            · rw [s'.eq_of_shows hshows] at hs
              simp [Statement.names, Expr.names] at hs
            · exact hgap ⟨s', hs', hshows⟩
          · obtain ⟨n, hrun, hout⟩ := hpieces t o
            exact ⟨n, (hstep t o).trans hrun, hout⟩

/-! ### Rendering -/

section

variable {x : String} {ss : List Statement} {base : Labels}

/-- No block of a direct text has the name. -/
lemma IsDirect.not_mem_of_mem_allBlocks (h : IsDirect x ss) :
    ∀ b ∈ allBlocks ss, x ∉ statementNames b.2 := by
  induction ss with
  | nil => nofun
  | cons s ss ih =>
    obtain ⟨hs, hrest⟩ := List.forall_mem_cons.1 h
    intro b hb
    rcases List.mem_append.1 hb with hb | hb
    · rcases hs with hs | hs
      · rw [s.eq_of_shows hs] at hb
        cases hb
      · exact s.not_mem_of_mem_blocks hs hb
    · exact ih hrest b hb

lemma Machine.has_start (h : (base.get? x).isSome) (ss : List Statement) :
    (Machine.start base ss).Has x := by
  obtain ⟨t, ht⟩ := Option.isSome_iff_exists.1 h
  simp only [Labels.get?] at ht
  exact ⟨.ofText t, by simp [Machine.start, lookup_map_ofText, ht]⟩

/-- A direct text that has the name as a free name shows its value. -/
lemma IsDirect.exists_shows (h : IsDirect x ss) (hfree : x ∈ freeNames ss) :
    ∃ s ∈ ss, s.shows x = true := by
  obtain ⟨s, hs, hx⟩ := mem_statementNames.1 (mem_names_of_mem_freeNames hfree)
  exact ⟨s, hs, (h s hs).resolve_right (not_not_intro hx)⟩

/-- A direct text is rendered for all values of the name or for none, as pieces around the value. -/
theorem renderStatements_of_isDirect (hx : x ≠ "caller") (hss : IsDirect x ss)
    (hbase : (base.get? x).isSome) :
    (∃ c, ∀ t values, IsVariant x t base values → renderStatements ss values = .error c) ∨
      ∃ pieces, ((∃ s ∈ ss, s.shows x = true) → none ∈ pieces) ∧
        ∀ t values, IsVariant x t base values →
          renderStatements ss values = .ok (String.ofList (fill t pieces)) := by
  have havoids := Machine.avoids_start hss.not_mem_of_mem_allBlocks base
  rcases execAll_of_isDirect hx (maxDepth + 2) hss havoids (Machine.has_start hbase ss) rfl with
    ⟨c, hc⟩ | ⟨pieces, hgap, hpieces⟩
  · refine .inl ⟨c, fun t values h => ?_⟩
    rw [renderStatements, h.start_eq, hc]
    rfl
  · refine .inr ⟨pieces, hgap, fun t values h => ?_⟩
    obtain ⟨n, hrun, hout⟩ := hpieces t ""
    have hn : n.out = String.ofList (fill t pieces) := by
      rw [← String.ofList_toList (s := n.out), hout]
      simp
    rw [renderStatements, h.start_eq, hrun, ← hn]
    rfl

end

end BurnRate.Expression
