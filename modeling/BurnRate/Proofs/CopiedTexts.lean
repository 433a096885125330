import BurnRate.Proofs.TotalTexts

/-!
Texts that are copied: those without tags, and those whose tags are comments and raw blocks.

They render to what stands outside of the marks, whatever the values. So only a text without tags
renders to itself, and each mark that validation lets pass is missing from what is rendered.
-/

namespace BurnRate.Expression

open Lexer

/-- A brace of the text starts a tag. -/
def HasTag (s : String) : Prop :=
  ['\x7b', '\x7b'] <:+: s.toList ∨ ['\x7b', '%'] <:+: s.toList ∨ ['\x7b', '#'] <:+: s.toList

instance (s : String) : Decidable (HasTag s) :=
  inferInstanceAs (Decidable (_ ∨ _ ∨ _))

def Token.data? : Token → Option String
  | .data s => some s
  | _ => none

/-- Outside of tags, in comments and in raw blocks: the whole text is copied or dropped. -/
def IsCopied (s : String) : Prop := ∀ t ∈ tokens s, (t.token.data?).isSome

instance (s : String) : Decidable (IsCopied s) :=
  inferInstanceAs (Decidable (∀ t ∈ tokens s, _))

/-- What the pieces of text among the tokens write. -/
def written (ts : List Located) : List Char :=
  ts.flatMap fun t => (t.token.data?.getD "").toList

@[simp] lemma written_nil : written [] = [] := rfl

@[simp] lemma written_cons (t : Located) (ts : List Located) :
    written (t :: ts) = (t.token.data?.getD "").toList ++ written ts := rfl

@[simp] lemma written_append (ts us : List Located) :
    written (ts ++ us) = written ts ++ written us := by
  simp [written]

namespace Lexer

lemma written_dataToken (cs : List Char) (line : ℕ) : written (dataToken cs line) = cs := by
  unfold dataToken
  split
  · next h => rw [List.isEmpty_iff.1 h, written_nil]
  · simp [Token.data?]

lemma split?_cons_of_ne {c : Char} (hc : c ≠ '\x7b') (cs : List Char) :
    split? (c :: cs) = (split? cs).map fun s => { s with before := c :: s.before } := by
  rw [split?]
  rintro _ _ rfl
  exact absurd rfl hc

/-! ### Tags take room -/

lemma length_split? {cs : List Char} {s : Split} (h : split? cs = some s) :
    s.before.length + s.rest.length + 2 ≤ cs.length := by
  fun_induction split? cs generalizing s with
  | case1 c cs marker hmarker =>
    cases h
    simp only [List.length_nil, List.length_drop, List.length_cons]
    omega
  | case2 c cs hmarker ih =>
    obtain ⟨s, hs, rfl⟩ := Option.map_eq_some_iff.1 h
    have := ih hs
    simp only [List.length_cons] at this ⊢
    omega
  | case3 c cs hne ih =>
    obtain ⟨s, hs, rfl⟩ := Option.map_eq_some_iff.1 h
    have := ih hs
    simp only [List.length_cons] at this ⊢
    omega
  | case4 => cases h

lemma length_around? {a b : Char} {cs before rest : List Char}
    (h : around? a b cs = some (before, rest)) : rest.length + 2 ≤ cs.length := by
  fun_induction around? a b cs generalizing before rest with
  | case1 c d cs hmark =>
    cases h
    simp only [List.length_cons]
    omega
  | case2 c d cs hmark ih =>
    obtain ⟨⟨before, rest⟩, hrest, heq⟩ := Option.map_eq_some_iff.1 h
    cases heq
    have := ih hrest
    simp only [List.length_cons] at this ⊢
    omega
  | case3 => cases h

lemma length_behind? {p cs rest : List Char} (h : behind? p cs = some rest) :
    rest.length ≤ cs.length := by
  induction p generalizing cs with
  | nil =>
    cases h
    exact le_rfl
  | cons a p ih =>
    cases cs with
    | nil => cases h
    | cons c cs =>
      rw [behind?] at h
      split at h
      · exact (ih h).trans (Nat.le_succ _)
      · cases h

lemma length_bareTag? {name cs rest : List Char} {spacing : Spacing}
    (h : bareTag? name cs = some (spacing, rest)) : rest.length ≤ cs.length := by
  simp only [bareTag?, Option.bind_eq_bind, Option.bind_eq_some_iff, Option.some.injEq,
    Prod.mk.injEq] at h
  obtain ⟨cs', hname, cs'', hclose, -, rfl⟩ := h
  calc cs''.length ≤ _ := length_behind? hclose
    _ ≤ (cs'.dropWhile isTagBlank).length := by simp
    _ ≤ cs'.length := (List.dropWhile_sublist _).length_le
    _ ≤ (cs.dropWhile isTagBlank).length := length_behind? hname
    _ ≤ cs.length := (List.dropWhile_sublist _).length_le

lemma length_rawEnd? {cs : List Char} {r : RawEnd} (h : rawEnd? cs = some r) :
    r.text.length + r.rest.length ≤ cs.length := by
  fun_induction rawEnd? cs generalizing r with
  | case1 cs before after rest =>
    next htag =>
    cases h
    have := length_bareTag? htag
    simp only [List.length_nil, List.length_drop, List.length_cons] at this ⊢
    omega
  | case2 cs before htag =>
    next ih =>
    obtain ⟨r, hr, rfl⟩ := Option.map_eq_some_iff.1 h
    have := ih hr
    simp only [List.length_cons] at this ⊢
    omega
  | case3 c cs hne ih =>
    obtain ⟨r, hr, rfl⟩ := Option.map_eq_some_iff.1 h
    have := ih hr
    simp only [List.length_cons] at this ⊢
    omega
  | case4 => cases h

lemma length_trimStart_le (p : Prop) [Decidable p] (cs : List Char) :
    (if p then Text.trimStart cs else cs).length ≤ cs.length := by
  split
  · exact (List.dropWhile_sublist _).length_le
  · exact le_rfl

lemma length_trimEnd_le (p : Prop) [Decidable p] (cs : List Char) :
    (if p then Text.trimEnd cs else cs).length ≤ cs.length := by
  split
  · calc (Text.trimEnd cs).length
        = (cs.reverse.dropWhile Text.isBlank).length := List.length_reverse
      _ ≤ cs.reverse.length := (List.dropWhile_sublist _).length_le
      _ = cs.length := List.length_reverse
  · exact le_rfl

/-! ### What a copied text writes -/

/-- The tokens are nothing but pieces of text. -/
def AllData (ts : List Located) : Prop := ∀ t ∈ ts, (t.token.data?).isSome

lemma not_allData_of_mem {ts : List Located} {t : Located} (hmem : t ∈ ts)
    (ht : t.token.data? = none) : ¬ AllData ts := by
  intro h
  simpa [ht] using h t hmem

/-- White space that is removed is as good as not there. -/
lemma scanData_trim (fuel : ℕ) (line : ℕ) (cs : List Char) :
    ∃ line', scanData (fuel + 1) true line cs =
      scanData (fuel + 1) false line' (cs.drop (cs.takeWhile Text.isBlank).length) :=
  ⟨line + lineBreaks (cs.takeWhile Text.isBlank), by
    simp only [scanData, if_true, Bool.false_eq_true, if_false, List.length_nil, List.drop_zero]
    rfl⟩

/-- Of a text that is copied, the marks of a tag and what a comment says are not written. -/
lemma length_written_of_split? {fuel : ℕ}
    (ih : ∀ {trim : Bool} {line : ℕ} {cs : List Char}, AllData (scanData fuel trim line cs) →
      (written (scanData fuel trim line cs)).length ≤ cs.length)
    {line : ℕ} {cs : List Char} {s : Split} (hs : split? cs = some s)
    (h : AllData (scanData (fuel + 1) false line cs)) :
    (written (scanData (fuel + 1) false line cs)).length < cs.length := by
  have hsplit := length_split? hs
  have hbefore := length_trimEnd_le (s.spacing == .remove) s.before
  simp only [scanData, Bool.false_eq_true, if_false, List.length_nil, List.drop_zero, hs] at h ⊢
  rw [written_append, written_dataToken, List.length_append]
  have h := fun t ht => h t (List.mem_append_right _ ht)
  match hmarker : s.marker with
  | .variable =>
    -- the start of an expression is no piece of text
    simp only [hmarker] at h
    exact absurd h (not_allData_of_mem List.mem_cons_self rfl)
  | .comment =>
    simp only [hmarker] at h ⊢
    cases hend : around? '#' '\x7d' s.rest with
    | none =>
      -- nor is what a comment without an end is read as
      simp only [hend] at h
      exact absurd h (not_allData_of_mem List.mem_cons_self rfl)
    | some p =>
      obtain ⟨comment, rest⟩ := p
      simp only [hend] at h ⊢
      have hrest := ih h
      have := length_around? hend
      omega
  | .block =>
    simp only [hmarker] at h ⊢
    cases hraw : bareTag? "raw".toList s.rest with
    | none =>
      simp only [hraw] at h
      exact absurd h (not_allData_of_mem List.mem_cons_self rfl)
    | some p =>
      obtain ⟨spacing, raw⟩ := p
      simp only [hraw] at h ⊢
      cases hend : rawEnd? raw with
      | none =>
        simp only [hend] at h
        exact absurd h (not_allData_of_mem List.mem_cons_self rfl)
      | some r =>
        simp only [hend] at h ⊢
        have hrest := ih fun t ht => h t (List.mem_cons_of_mem _ ht)
        have htag := length_bareTag? hraw
        have hr := length_rawEnd? hend
        have hstart := length_trimStart_le (spacing == .remove) r.text
        have htext := length_trimEnd_le (r.before == .remove)
          (if spacing == .remove then Text.trimStart r.text else r.text)
        simp only [written_cons, Token.data?, Option.getD_some, String.toList_ofList,
          List.length_append]
        omega

/-- A copied text writes no more than there is; the induction is on the tags that are left. -/
lemma length_written_scanData_le (fuel : ℕ) {trim : Bool} {line : ℕ} {cs : List Char}
    (h : AllData (scanData fuel trim line cs)) :
    (written (scanData fuel trim line cs)).length ≤ cs.length := by
  induction fuel generalizing trim line cs with
  | zero =>
    rw [scanData]
    exact Nat.zero_le _
  | succ fuel ih =>
    have hfalse : ∀ {line : ℕ} {cs : List Char}, AllData (scanData (fuel + 1) false line cs) →
        (written (scanData (fuel + 1) false line cs)).length ≤ cs.length := by
      intro line cs h
      cases hs : split? cs with
      | none =>
        simp [scanData, hs, written_dataToken]
      | some s => exact (length_written_of_split? ih hs h).le
    cases trim with
    | false => exact hfalse h
    | true =>
      obtain ⟨line', heq⟩ := scanData_trim fuel line cs
      rw [heq] at h ⊢
      exact (hfalse h).trans (by simp)

end Lexer

/-! ### Rendering a copied text -/

/-- The statements that copy pieces of text. -/
def copies (ts : List Located) : List Statement := ts.map fun t => .copy (t.token.data?.getD "")

namespace Parser

lemma run_take?_data {t : Located} {ts : List Located} {st : State} (ht : (t.token.data?).isSome)
    (hst : st.tokens = t :: ts) :
    take?.run st =
      .ok (some (.data (t.token.data?.getD "")), { st with tokens := ts, line := t.line }) := by
  obtain ⟨token, line⟩ := t
  cases token with
  | data s =>
    obtain ⟨tokens, l, depth, blocks, inRoutine⟩ := st
    cases hst
    rfl
  | _ => cases ht

lemma run_statements_of_allData {ts : List Located} (h : AllData ts) {fuel : ℕ}
    (hfuel : ts.length < fuel) (ends : List String) (before : List Statement) (st : State)
    (hst : st.tokens = ts) :
    ∃ st', (statements fuel ends before).run st = .ok (before.reverse ++ copies ts, st') := by
  induction ts generalizing fuel before st with
  | nil =>
    obtain ⟨fuel, rfl⟩ : ∃ n, fuel = n + 1 := ⟨fuel - 1, by omega⟩
    obtain ⟨tokens, l, depth, blocks, inRoutine⟩ := st
    cases hst
    refine ⟨⟨[], l, depth, blocks, inRoutine⟩, ?_⟩
    rw [copies, List.map_nil, List.append_nil]
    rfl
  | cons t ts ih =>
    obtain ⟨ht, hts⟩ := List.forall_mem_cons.1 h
    obtain ⟨fuel, rfl⟩ : ∃ n, fuel = n + 1 := ⟨fuel - 1, by omega⟩
    have hfuel : ts.length < fuel := Nat.lt_of_succ_lt_succ hfuel
    obtain ⟨st', hrun⟩ := ih hts hfuel (.copy (t.token.data?.getD "") :: before)
      { st with tokens := ts, line := t.line } rfl
    refine ⟨st', ?_⟩
    rw [statements, StateT.run_bind, run_take?_data ht hst]
    refine hrun.trans ?_
    simp [copies]

end Parser

lemma parse_of_isCopied {s : String} (h : IsCopied s) : parse s = .ok (copies (tokens s)) := by
  have hfuel : (tokens s).length < 20 * (tokens s).length + 20 := by omega
  obtain ⟨st, hrun⟩ := Parser.run_statements_of_allData h hfuel [] [] { tokens := tokens s } rfl
  rw [parse, StateT.run'_eq, hrun]
  rfl

lemma run_execAll_copies (perform : Task → Eval Unit) (ts : List Located) (m : Machine) :
    (execAll perform (copies ts)).run m = .ok ((), m.wrote (String.ofList (written ts))) := by
  induction ts generalizing m with
  | nil =>
    rw [copies, List.map_nil, execAll, written_nil, Machine.wrote, String.ofList_nil,
      String.append_empty]
    rfl
  | cons t ts ih =>
    rw [copies, List.map_cons, run_execAll_copy]
    refine (ih _).trans ?_
    simp [Machine.wrote, String.ofList_append, String.append_assoc]

lemma renderStatements_copies (ts : List Located) (values : Labels) :
    renderStatements (copies ts) values = .ok (String.ofList (written ts)) := by
  rw [renderStatements, run_execAll_copies]
  simp [Machine.start, Machine.wrote]

/-- A copied text renders to what it writes, whatever the values. -/
theorem render_of_isCopied {s : String} (h : IsCopied s) (values : Labels) :
    render s values = .ok (String.ofList (written (tokens s))) := by
  simp only [render, parse_of_isCopied h, renderStatements_copies]

lemma isSome_ofChar?_iff {c : Char} :
    (Marker.ofChar? c).isSome ↔ c = '\x7b' ∨ c = '%' ∨ c = '#' := by
  unfold Marker.ofChar?
  split_ifs <;> simp_all

lemma pair_infix_cons_iff {a b c : Char} {cs : List Char} :
    [a, b] <:+: c :: cs ↔ (a = c ∧ ∃ ds, cs = b :: ds) ∨ [a, b] <:+: cs := by
  rw [List.infix_cons_iff, List.cons_prefix_cons, List.prefix_iff_exists_append_eq]
  simp only [List.singleton_append, eq_comm]

lemma isSome_split?_iff {cs : List Char} :
    (split? cs).isSome ↔ ∃ c, (Marker.ofChar? c).isSome ∧ ['\x7b', c] <:+: cs := by
  fun_induction split? cs with
  | case1 c cs marker hmarker =>
    have hinfix : ['\x7b', c] <:+: '\x7b' :: c :: cs := ⟨[], cs, rfl⟩
    simpa using ⟨c, by simp [hmarker], hinfix⟩
  | case2 c cs hmarker ih =>
    rw [Option.isSome_map, ih]
    refine exists_congr fun d => and_congr_right fun hd => ?_
    rw [pair_infix_cons_iff (c := '\x7b'), or_iff_right]
    rintro ⟨-, ds, heq⟩
    cases heq
    simp [hmarker] at hd
  | case3 c cs hne ih =>
    rw [Option.isSome_map, ih]
    refine exists_congr fun d => and_congr_right fun _ => ?_
    rw [pair_infix_cons_iff (c := c), or_iff_right]
    rintro ⟨rfl, ds, rfl⟩
    exact hne d ds rfl rfl
  | case4 => simp

lemma hasTag_iff {s : String} : HasTag s ↔ (split? s.toList).isSome := by
  rw [isSome_split?_iff]
  simp only [isSome_ofChar?_iff, or_and_right, exists_or, exists_eq_left]
  rfl

lemma tokens_of_not_hasTag {s : String} (h : ¬ HasTag s) : tokens s = dataToken s.toList 1 := by
  rw [hasTag_iff, Option.not_isSome_iff_eq_none] at h
  simp [tokens, scanData, h, lineBreaks]

lemma isCopied_of_not_hasTag {s : String} (h : ¬ HasTag s) : IsCopied s := by
  rw [IsCopied, tokens_of_not_hasTag h, dataToken]
  split <;> simp [Token.data?]

/-- Only a text without tags renders to itself, of those that are copied. -/
theorem render_eq_self_iff {s : String} (h : IsCopied s) (values : Labels) :
    render s values = .ok s ↔ ¬ HasTag s := by
  rw [render_of_isCopied h, Except.ok.injEq]
  constructor
  · intro hs htag
    obtain ⟨sp, hsp⟩ := Option.isSome_iff_exists.1 (hasTag_iff.1 htag)
    have hlt : (written (tokens s)).length < s.toList.length :=
      length_written_of_split? (length_written_scanData_le _) hsp h
    rw [← String.toList_inj, String.toList_ofList] at hs
    exact hlt.ne (congrArg List.length hs)
  · intro htag
    rw [tokens_of_not_hasTag htag, written_dataToken, String.ofList_toList]

end BurnRate.Expression
