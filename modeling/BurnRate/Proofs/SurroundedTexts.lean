import BurnRate.Proofs.StatementSteps

/-!
The statements of a text with white space around it, next to those of the text.

The same statements stand between pieces of text that are copied. These are longer by white space at
the outer ends, or there are no such pieces in one of the texts.
-/

namespace BurnRate.Expression

/-- The statements `ss'` are `ss`, with white space that is copied in front and behind. -/
inductive Widened : List Statement → List Statement → Prop
  | copied {a b : List Char} {ts us : List Located} (ha : ∀ c ∈ a, Text.isBlank c = true)
      (hb : ∀ c ∈ b, Text.isBlank c = true) (h : written us = a ++ (written ts ++ b)) :
      Widened (copies ts) (copies us)
  | around {a b : List Char} {before before' behind behind' : List Located} (core : List Statement)
      (ha : ∀ c ∈ a, Text.isBlank c = true) (hb : ∀ c ∈ b, Text.isBlank c = true)
      (hbefore : written before' = a ++ written before)
      (hbehind : written behind' = written behind ++ b) :
      Widened (copies before ++ (core ++ copies behind))
        (copies before' ++ (core ++ copies behind'))

namespace Parser

open Lexer

variable {k : ℕ} {r : List Char}

/-- Two parses stand outside of tags; they may have come there from different lines. -/
structure Outside (k : ℕ) (r : List Char) (st st' : State) : Prop where
  tokens : Trails k (String.ofList r) false st.tokens st'.tokens
  depth : st'.depth = st.depth
  blocks : st'.blocks = st.blocks
  inRoutine : st'.inRoutine = st.inRoutine

/-- Outside of tags, two parses stand at a common token, or only text is left. -/
lemma Outside.next {st st' : State} (h : Outside k r st st') :
    (AllData st.tokens ∧ AllData st'.tokens ∧ (written st'.tokens = written st.tokens ∨
      written st'.tokens = written st.tokens ++ r)) ∨
    ∃ t ts us, st.tokens = t :: ts ∧ st'.tokens = t.down k :: us ∧
      (∀ c, t.token = .malformed c → c = .syntaxError) ∧
      Trails k (String.ofList r) t.token.inTag ts us := by
  have htokens := h.tokens
  generalize hts : st.tokens = ts, hus : st'.tokens = us at htokens
  cases htokens with
  | cons ht h => exact .inr ⟨_, _, _, rfl, rfl, ht rfl, h⟩
  | _ => exact .inl ⟨by simp [AllData, Token.data?], by simp [AllData, Token.data?],
      by simp [Token.data?]⟩

/-- What two parses make of the rest of two texts: the same, but for what is copied at the end, or
they are refused for the same cause, which is further down or has no line. -/
inductive Finish (k : ℕ) (r : List Char) (before before' : List Statement) :
    Except Refusal (List Statement × State) → Except Refusal (List Statement × State) → Prop
  | ok {core : List Statement} {behind behind' : List Located} {st st' : State}
      (h : written behind' = written behind ∨ written behind' = written behind ++ r) :
      Finish k r before before' (.ok (before.reverse ++ (core ++ copies behind), st))
        (.ok (before'.reverse ++ (core ++ copies behind'), st'))
  | refused {c : Cause} {l : ℕ} : Finish k r before before' (.error ⟨c, l⟩) (.error ⟨c, l + k⟩)
  | malformed {l l' : ℕ} :
      Finish k r before before' (.error ⟨.syntaxError, l⟩) (.error ⟨.syntaxError, l'⟩)

/-- A statement that both parses have come to is one of the common ones. -/
lemma Finish.push {before before' : List Statement} {s : Statement}
    {x x' : Except Refusal (List Statement × State)}
    (h : Finish k r (s :: before) (s :: before') x x') : Finish k r before before' x x' := by
  cases h with
  | @ok core behind behind' st st' h =>
    simp only [List.reverse_cons, List.append_assoc]
    exact @Finish.ok k r before before' (s :: core) behind behind' st st' h
  | refused => exact .refused
  | malformed => exact .malformed

lemma Answers.run_bind {α β : Type} {p : Parse α} {a : α} {st st₁ : State}
    (hp : Answers p st a st₁) (f : α → Parse β) : (p >>= f).run st = (f a).run st₁ := by
  rw [StateT.run_bind, hp]
  rfl

/-- The test is for an end of a tag. -/
def Closes (t : Option Token → Bool) : Prop :=
  ∀ t?, t t? = true → t? = some .closeVariable ∨ t? = some .closeBlock

lemma Closes.inTag {t : Option Token → Bool} (ht : Closes t) {u : Token} (hu : t (some u) = true) :
    u.inTag = false := by
  rcases ht (some u) hu with h | h
  all_goals
    cases h
    rfl

section

variable {α : Type} {n d : ℕ} {t : Option Token → Bool} (ht : Closes t)

include ht

/-- No tag ends where only text is left. -/
lemma run_expect_of_spent {st : State} (hst : Spent st) :
    ∃ l, (expect t).run st = .error ⟨.syntaxError, l⟩ := by
  have hnone : t none = false := Bool.eq_false_iff.2 fun h => (ht _ h).elim nofun nofun
  have hdata (s : String) : t (some (.data s)) = false :=
    Bool.eq_false_iff.2 fun h => (ht _ h).elim nofun nofun
  rw [expect, StateT.run_bind]
  cases hts : st.tokens with
  | nil =>
    rw [run_take?_nil hts]
    refine ⟨st.line, ?_⟩
    simp only [bind, Except.bind, hnone]
    rfl
  | cons u us =>
    rcases hst u (hts ▸ List.mem_cons_self) with hu | hu
    · rw [run_take?_data hu hts]
      refine ⟨u.line, ?_⟩
      simp only [bind, Except.bind, hdata]
      rfl
    · rw [run_take?_malformed hts hu]
      exact ⟨st.line, rfl⟩

lemma Exhausted.expect_bind {x : Except Refusal (α × State)} (hx : Exhausted x)
    (f : α → Parse (List Statement)) :
    ∃ l, (x >>= fun y => (expect t >>= fun _ => f y.1).run y.2) = .error ⟨.syntaxError, l⟩ := by
  cases x with
  | error e =>
    obtain ⟨c, l⟩ := e
    obtain rfl : c = .syntaxError := hx
    exact ⟨l, rfl⟩
  | ok y =>
    obtain ⟨l, hl⟩ := run_expect_of_spent ht hx
    refine ⟨l, ?_⟩
    change (expect t >>= fun _ => f y.1).run y.2 = _
    rw [StateT.run_bind, hl]
    rfl

lemma Exhausted.finish {before before' : List Statement} {x x' : Except Refusal (α × State)}
    (hx : Exhausted x) (hx' : Exhausted x') (f f' : α → Parse (List Statement)) :
    Finish k r before before' (x >>= fun y => (expect t >>= fun _ => f y.1).run y.2)
      (x' >>= fun y => (expect t >>= fun _ => f' y.1).run y.2) := by
  obtain ⟨l, hl⟩ := hx.expect_bind ht f
  obtain ⟨l', hl'⟩ := hx'.expect_bind ht f'
  rw [hl, hl']
  exact .malformed

/-- Behind a tag, both parses go on outside of tags, if the tag ends at all. -/
lemma Finish.tag {before before' : List Statement} {p p' : Parse α}
    {f f' g g' : α → Parse (List Statement)} {st st' : State}
    (hp : Outcome k (String.ofList r) n d (p.run st) (p'.run st'))
    (hg : ∀ a, g a = expect t >>= fun _ => f a) (hg' : ∀ a, g' a = expect t >>= fun _ => f' a)
    (hrest : ∀ a st st', Outside k r st st' → st.tokens.length < n →
      Finish k r before before' ((f a).run st) ((f' a).run st')) :
    Finish k r before before' ((p >>= g).run st) ((p' >>= g').run st') := by
  obtain rfl : g = fun a => expect t >>= fun _ => f a := funext hg
  obtain rfl : g' = fun a => expect t >>= fun _ => f' a := funext hg'
  rw [StateT.run_bind, StateT.run_bind]
  generalize p.run st = x, p'.run st' = x' at hp
  cases hp with
  | refused => exact .refused
  | exhausted hx hx' => exact hx.finish ht hx' f f'
  | @ok a st st' hst hn =>
    rcases hst.next with ⟨hspent, hspent'⟩ | ⟨u, us, vs, hus, hvs, htrails⟩
    · have hok : Exhausted (.ok (a, st) : Except Refusal (α × State)) := hspent
      have hok' : Exhausted (.ok (a, st') : Except Refusal (α × State)) := hspent'
      exact hok.finish ht hok' f f'
    change Finish k r before before' ((expect t >>= fun _ => f a).run st)
      ((expect t >>= fun _ => f' a).run st')
    rw [expect, bind_assoc, bind_assoc]
    rcases u.token.malformed_or with ⟨c, hc⟩ | hne
    · rw [StateT.run_bind, StateT.run_bind, run_take?_malformed hus hc,
        run_take?_malformed hvs hc, hst.line]
      exact .refused
    rw [(answers_take? hus hne).run_bind, (answers_take? hvs hne).run_bind]
    by_cases hu : t (some u.token) = true
    · have hgo := hrest a { st with tokens := us, line := u.line }
        { st' with tokens := vs, line := u.line + k }
        ⟨ht.inTag hu ▸ htrails, hst.depth, hst.blocks, hst.inRoutine⟩
        (by rw [hus] at hn; exact Nat.lt_of_succ_le (Nat.le_of_add_right_le hn))
      simp only [Located.down, hu, if_true, pure_bind]
      exact hgo
    · simp only [Located.down, hu]
      exact .refused

end

/-- The test for the end of a tag with a value. -/
def isCloseVariable : Option Token → Bool
  | some .closeVariable => true
  | _ => false

lemma isCloseVariable_iff {t? : Option Token} :
    isCloseVariable t? = true ↔ t? = some .closeVariable := by
  unfold isCloseVariable
  split
  · simp
  · next h => exact ⟨nofun, fun ht => absurd ht h⟩

lemma closes_isCloseVariable : Closes isCloseVariable := fun _ h => .inl (isCloseVariable_iff.1 h)

lemma closes_isCloseBlock : Closes isCloseBlock := by
  intro t? h
  unfold isCloseBlock at h
  split at h
  · exact .inr rfl
  · cases h

/-- Whatever is done behind the end of a tag, without it the parser is refused. -/
lemma take?_bind_eq {β : Type} {t : Option Token → Bool} {g : Option Token → Parse β} {p : Parse β}
    (hg : ∀ t?, g t? = if t t? = true then p else refuse) :
    take? >>= g = expect t >>= fun _ => p := by
  rw [expect, bind_assoc]
  congr 1
  funext t?
  rw [hg]
  split <;> rfl

/-- Where only text is left, it is copied. -/
lemma Finish.copied {fuel fuel' : ℕ} {before before' : List Statement} {st st' : State}
    (h : AllData st.tokens) (h' : AllData st'.tokens) (hfuel : st.tokens.length < fuel)
    (hfuel' : st'.tokens.length < fuel')
    (hwritten : written st'.tokens = written st.tokens ∨
      written st'.tokens = written st.tokens ++ r) :
    Finish k r before before' ((statements fuel [] before).run st)
      ((statements fuel' [] before').run st') := by
  obtain ⟨st₁, hrun⟩ := run_statements_of_allData h hfuel [] before st rfl
  obtain ⟨st₁', hrun'⟩ := run_statements_of_allData h' hfuel' [] before' st' rfl
  rw [hrun, hrun']
  exact @Finish.ok k r before before' [] st.tokens st'.tokens st₁ st₁' hwritten

/-- **The same rest**: outside of tags, two parses make the same of the rest of texts that differ in
the white space around them. -/
lemma finish_statements {n fuel fuel' : ℕ} {before before' : List Statement} {st st' : State}
    (h : Outside k r st st') (hn : st.tokens.length < n)
    (hfuel : 20 * st.tokens.length + 2 ≤ min fuel fuel') :
    Finish k r before before' ((statements fuel [] before).run st)
      ((statements fuel' [] before').run st') := by
  induction n generalizing fuel fuel' before before' st st' with
  | zero => exact absurd hn (Nat.not_lt_zero _)
  | succ n ih =>
    have hlength := h.tokens.length_le
    rcases h.next with ⟨hdata, hdata', hwritten⟩ | ⟨t, ts, us, hts, hus, ht, htrails⟩
    · exact .copied hdata hdata' (by omega) (by omega) hwritten
    obtain ⟨fuel, rfl⟩ : ∃ m, fuel = m + 1 := ⟨fuel - 1, by omega⟩
    obtain ⟨fuel', rfl⟩ : ∃ m, fuel' = m + 1 := ⟨fuel' - 1, by omega⟩
    rw [hts, List.length_cons] at hn hfuel
    rw [statements, statements]
    rcases t.token.malformed_or with ⟨c, hc⟩ | hne
    · obtain rfl := ht c hc
      rw [StateT.run_bind, StateT.run_bind, run_take?_malformed hts hc,
        run_take?_malformed hus hc]
      exact .malformed
    rw [(answers_take? hts hne).run_bind, (answers_take? hus hne).run_bind]
    obtain ⟨token, l⟩ := t
    have hbeside : Beside k (String.ofList r) { st with tokens := ts, line := l }
        { st' with tokens := us, line := l + k } :=
      ⟨⟨_, htrails⟩, rfl, h.depth, h.blocks, h.inRoutine⟩
    -- What is parsed in a tag takes none of the tokens behind its end.
    have htag {s : Statement} (st₁ st₁' : State) (h : Outside k r st₁ st₁')
        (hlt : st₁.tokens.length < ts.length) :
        Finish k r before before' ((statements fuel [] (s :: before)).run st₁)
          ((statements fuel' [] (s :: before')).run st₁') :=
      (ih h (by omega) (by omega)).push
    dsimp only [Located.down]
    cases token with
    | data s =>
      have hgo : Outside k r { st with tokens := ts, line := l }
          { st' with tokens := us, line := l + k } :=
        ⟨htrails, h.depth, h.blocks, h.inRoutine⟩
      refine (ih hgo (Nat.lt_of_succ_lt_succ hn) ?_).push
      dsimp only
      omega
    | openVariable =>
      have hexpr := ((exprsAlike fuel fuel').expr (by omega)).outcome _ _ hbeside
        (Nat.lt_succ_self ts.length)
      dsimp only
      refine Finish.tag closes_isCloseVariable hexpr (fun e => ?_) (fun e => ?_)
        fun e => htag (s := .emit e)
      all_goals
        refine take?_bind_eq fun t? => ?_
        split
        · rfl
        · next h => exact (if_neg (mt isCloseVariable_iff.1 h)).symm
    | openBlock =>
      have hstatement : Alike k (String.ofList r) (ts.length + 1) 0
          (peek? >>= fun _ => deeper (statement fuel))
          (peek? >>= fun _ => deeper (statement fuel')) :=
        .bind .peek fun _ => .deepen ((statementsAlike fuel fuel').statement (by omega))
      have hx := hstatement.outcome _ _ hbeside (Nat.lt_succ_self ts.length)
      simp only [List.any_nil, Bool.false_eq_true, if_false]
      rw [← bind_assoc, ← bind_assoc peek? (fun _ => deeper (statement fuel'))]
      exact Finish.tag closes_isCloseBlock hx (fun _ => rfl) (fun _ => rfl)
        fun s => htag (s := s)
    | malformed c => exact absurd rfl (hne c)
    | _ => exact .refused

/-- The piece of text in front of all tags is copied. -/
lemma run_statements_dataToken (fuel : ℕ) (cs : List Char) (ts : List Located) :
    ∃ fuel₁ st₁, fuel ≤ fuel₁ ∧ st₁.tokens = ts ∧ st₁.depth = 0 ∧ st₁.blocks = [] ∧
      st₁.inRoutine = false ∧
      (statements (fuel + 1) [] []).run { tokens := dataToken cs 1 ++ ts } =
        (statements fuel₁ [] (copies (dataToken cs 1)).reverse).run st₁ := by
  rw [dataToken]
  split
  · exact ⟨fuel + 1, { tokens := ts }, Nat.le_succ fuel, rfl, rfl, rfl, rfl, rfl⟩
  · refine ⟨fuel, { tokens := ts, line := 1 }, le_rfl, rfl, rfl, rfl, rfl, ?_⟩
    have htake : Answers take? { tokens := [⟨.data (String.ofList cs), 1⟩] ++ ts }
        (some (.data (String.ofList cs))) { tokens := ts, line := 1 } :=
      answers_take? (t := ⟨.data (String.ofList cs), 1⟩) rfl (by simp)
    rw [statements, htake.run_bind]
    rfl

end Parser

/-- What is made of a text and of the text with white space around it. -/
inductive ParsedAlike (k : ℕ) :
    Except Refusal (List Statement) → Except Refusal (List Statement) → Prop
  | ok {ss ss' : List Statement} (h : Widened ss ss') : ParsedAlike k (.ok ss) (.ok ss')
  | refused {c : Cause} {l : ℕ} : ParsedAlike k (.error ⟨c, l⟩) (.error ⟨c, l + k⟩)
  | malformed {l l' : ℕ} :
      ParsedAlike k (.error ⟨.syntaxError, l⟩) (.error ⟨.syntaxError, l'⟩)

section

variable {l r : List Char} (hl : ∀ c ∈ l, Text.isBlank c = true)
  (hr : ∀ c ∈ r, Text.isBlank c = true) {s e : String} (he : e.toList = l ++ (s.toList ++ r))

include hl hr he

lemma parse_surrounded_of_not_hasTag (htag : ¬ HasTag s) :
    ParsedAlike (Lexer.lineBreaks l) (parse s) (parse e) := by
  have htag' : ¬ HasTag e := by
    rw [hasTag_iff, Option.not_isSome_iff_eq_none] at htag ⊢
    rw [he, Lexer.split?_blank_append hl, Lexer.split?_append_blank hr, htag]
    rfl
  rw [parse_of_isCopied (isCopied_of_not_hasTag htag),
    parse_of_isCopied (isCopied_of_not_hasTag htag'), tokens_of_not_hasTag htag,
    tokens_of_not_hasTag htag']
  refine .ok (.copied hl hr ?_)
  rw [Lexer.written_dataToken, Lexer.written_dataToken, he]

open BurnRate.Expression.Parser in
lemma parse_surrounded_of_hasTag (htag : HasTag s) :
    ParsedAlike (Lexer.lineBreaks l) (parse s) (parse e) := by
  obtain ⟨a, d, ts, us, ha, hs, he, htrails⟩ := Lexer.tokens_surrounded hl hr he htag
  obtain ⟨fuel, st, hfuel, hts, hdepth, hblocks, hinRoutine, hrun⟩ :=
    run_statements_dataToken (20 * (Lexer.tokens s).length + 19) d ts
  obtain ⟨fuel', st', hfuel', hus, hdepth', hblocks', hinRoutine', hrun'⟩ :=
    run_statements_dataToken (20 * (Lexer.tokens e).length + 19) (a ++ d) us
  have hlength := congrArg List.length hs
  have hlength' := congrArg List.length he
  have hle := htrails.length_le
  rw [List.length_append] at hlength hlength'
  rw [← hts, ← hus] at htrails
  have houtside : Outside (Lexer.lineBreaks l) r st st' :=
    ⟨htrails, hdepth'.trans hdepth.symm, hblocks'.trans hblocks.symm,
      hinRoutine'.trans hinRoutine.symm⟩
  have hfinish : Finish (Lexer.lineBreaks l) r (copies (Lexer.dataToken d 1)).reverse
      (copies (Lexer.dataToken (a ++ d) 1)).reverse _ _ :=
    finish_statements houtside (Nat.lt_succ_self _)
      (by rw [hts]; omega : 20 * st.tokens.length + 2 ≤ min fuel fuel')
  rw [← hs] at hrun
  rw [← he] at hrun'
  rw [parse, parse, StateT.run'_eq, StateT.run'_eq, hrun, hrun']
  generalize (statements fuel [] _).run st = x, (statements fuel' [] _).run st' = x' at hfinish ⊢
  cases hfinish with
  | @ok core behind behind' st st' h =>
    rw [List.reverse_reverse, List.reverse_reverse]
    have hbefore : written (Lexer.dataToken (a ++ d) 1) = a ++ written (Lexer.dataToken d 1) := by
      rw [Lexer.written_dataToken, Lexer.written_dataToken]
    rcases h with h | h
    · exact .ok (.around core ha (b := []) (List.forall_mem_nil _) hbefore (by rw [h, List.append_nil]))
    · exact .ok (.around core ha hr hbefore h)
  | refused => exact .refused
  | malformed => exact .malformed

/-- **White space around a text is copied**: the text is parsed with it as without it, or refused
for the same cause, further down by the lines in front. -/
theorem parse_surrounded : ParsedAlike (Lexer.lineBreaks l) (parse s) (parse e) := by
  by_cases htag : HasTag s
  · exact parse_surrounded_of_hasTag hl hr he htag
  · exact parse_surrounded_of_not_hasTag hl hr he htag

end

end BurnRate.Expression
