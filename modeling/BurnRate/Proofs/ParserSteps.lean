import BurnRate.Proofs.PlainTexts
import BurnRate.Proofs.TokenTrails

/-!
Parsing two texts that differ in the white space around them, step by step.

As long as tokens that both texts have are left, both parses do the same. Behind them, nothing can
end a tag any more: what is parsed from there on either leaves no such token or is refused for its
syntax. How many steps the parsers are allowed does not matter, as long as they are enough for the
tokens that are left.
-/

namespace BurnRate.Expression

/-- A token is malformed for a cause, or not. -/
lemma Token.malformed_or (t : Token) : (∃ c, t = .malformed c) ∨ ∀ c, t ≠ .malformed c := by
  rw [← not_exists]
  exact em _

namespace Parser

/-! ### Behind the common tokens -/

/-- Only text is left, or what is malformed by its syntax. -/
def Spent (st : State) : Prop :=
  ∀ t ∈ st.tokens, (t.token.data?).isSome ∨ t.token = .malformed .syntaxError

/-- A parse that has come to an end of the text, or is refused there. -/
def Exhausted {α : Type} : Except Refusal (α × State) → Prop
  | .ok (_, st) => Spent st
  | .error e => e.cause = .syntaxError

/-- Where only text is left, it remains so, and the parser is refused at most for the syntax. -/
def Sinks {α : Type} (p : Parse α) : Prop := ∀ st, Spent st → Exhausted (p.run st)

section

variable {α β : Type} {p : Parse α}

lemma Sinks.pure (a : α) : Sinks (Pure.pure a : Parse α) := fun _ hst => hst

lemma Sinks.refuse : Sinks (Parser.refuse : Parse α) := fun _ _ => rfl

lemma Exhausted.bind {x : Except Refusal (α × State)} {f : α → Parse β} (hx : Exhausted x)
    (hf : ∀ a, Sinks (f a)) : Exhausted (x >>= fun y => (f y.1).run y.2) := by
  cases x with
  | error e => exact hx
  | ok y => exact hf y.1 y.2 hx

lemma Sinks.bind {f : α → Parse β} (hp : Sinks p) (hf : ∀ a, Sinks (f a)) : Sinks (p >>= f) :=
  fun st hst => (hp st hst).bind hf

end

/-- What holds of two parsers without any steps, and carries over to one step more, holds of both
whatever steps they are allowed, if it does where one of them may take none. -/
lemma forall_steps {P : ℕ → ℕ → Prop} (hzero : P 0 0)
    (hsucc : ∀ fuel fuel', P fuel fuel' → P (fuel + 1) (fuel' + 1))
    (hspent : ∀ fuel fuel', min fuel fuel' = 0 → P fuel fuel → P fuel' fuel' → P fuel fuel')
    (fuel fuel' : ℕ) : P fuel fuel' := by
  have hself (fuel : ℕ) : P fuel fuel := by
    induction fuel with
    | zero => exact hzero
    | succ fuel ih => exact hsucc fuel fuel ih
  induction fuel generalizing fuel' with
  | zero => exact hspent 0 fuel' (Nat.zero_min fuel') hzero (hself fuel')
  | succ fuel ih =>
    cases fuel' with
    | zero => exact hspent (fuel + 1) 0 (Nat.min_zero _) (hself _) hzero
    | succ fuel' => exact hsucc fuel fuel' (ih fuel')

/-! ### Side by side -/

section

variable {k : ℕ} {r : String}

/-- Two parses stand at the same place of texts with white space around one of them. -/
structure Beside (k : ℕ) (r : String) (st st' : State) : Prop where
  tokens : ∃ inTag, Trails k r inTag st.tokens st'.tokens
  line : st'.line = st.line + k
  depth : st'.depth = st.depth
  blocks : st'.blocks = st.blocks
  inRoutine : st'.inRoutine = st.inRoutine

/-- What two parses say of `n` tokens: the same, with `d` tokens taken at least, or they are refused
for the same cause, or have both come to an end. -/
inductive Outcome {α : Type} (k : ℕ) (r : String) (n d : ℕ) :
    Except Refusal (α × State) → Except Refusal (α × State) → Prop
  | ok {a : α} {st st' : State} (h : Beside k r st st') (hn : st.tokens.length + d ≤ n) :
      Outcome k r n d (.ok (a, st)) (.ok (a, st'))
  | refused {c : Cause} {l : ℕ} : Outcome k r n d (.error ⟨c, l⟩) (.error ⟨c, l + k⟩)
  | exhausted {x x' : Except Refusal (α × State)} (h : Exhausted x) (h' : Exhausted x') :
      Outcome k r n d x x'

/-- The parsers do the same on less than `n` tokens, and take `d` of them at least. -/
structure Alike {α : Type} (k : ℕ) (r : String) (n d : ℕ) (p p' : Parse α) : Prop where
  sinks : Sinks p
  sinks' : Sinks p'
  outcome : ∀ st st', Beside k r st st' → st.tokens.length < n →
    Outcome k r st.tokens.length d (p.run st) (p'.run st')

variable {α β : Type} {n d e : ℕ} {p p' q q' : Parse α} {f f' : α → Parse β}

lemma Outcome.mono {m : ℕ} {x x' : Except Refusal (α × State)} (h : Outcome k r n d x x')
    (hm : n + e ≤ m + d) : Outcome k r m e x x' := by
  cases h with
  | ok hst hn => exact .ok hst (by omega)
  | refused => exact .refused
  | exhausted hx hx' => exact .exhausted hx hx'

lemma Alike.mono {m : ℕ} (h : Alike k r n d p p') (hm : m ≤ n) (he : e ≤ d) :
    Alike k r m e p p' :=
  ⟨h.sinks, h.sinks', fun st st' hst hlength =>
    (h.outcome st st' hst (hlength.trans_le hm)).mono (by omega)⟩

lemma Alike.le (h : Alike k r n d p p') (he : e ≤ d) : Alike k r n e p p' := h.mono le_rfl he

lemma Alike.pure (a : α) : Alike k r n 0 (Pure.pure a : Parse α) (Pure.pure a) :=
  ⟨.pure a, .pure a, fun _ _ hst _ => .ok hst le_rfl⟩

lemma Alike.refuse : Alike k r n d (Parser.refuse : Parse α) Parser.refuse := by
  refine ⟨.refuse, .refuse, fun st st' hst _ => ?_⟩
  have hrun (st : State) : (Parser.refuse : Parse α).run st = .error ⟨.syntaxError, st.line⟩ := rfl
  rw [hrun, hrun, hst.line]
  exact .refused

/-- Where no token may be left, the parsers need not do the same. -/
lemma Alike.spent {m : ℕ} (hm : 20 * m < 20) (h : Alike k r 0 d p p) (h' : Alike k r 0 d p' p') :
    Alike k r m d p p' := by
  obtain rfl : m = 0 := by omega
  exact ⟨h.sinks, h'.sinks', fun _ _ _ hlength => absurd hlength (Nat.not_lt_zero _)⟩

lemma Outcome.bind {x x' : Except Refusal (α × State)} (h : Outcome k r n d x x')
    (hf : ∀ a, Sinks (f a)) (hf' : ∀ a, Sinks (f' a))
    (hrest : ∀ a st st', Beside k r st st' → st.tokens.length + d ≤ n →
      Outcome k r st.tokens.length (e - d) ((f a).run st) ((f' a).run st')) :
    Outcome k r n e (x >>= fun y => (f y.1).run y.2) (x' >>= fun y => (f' y.1).run y.2) := by
  cases h with
  | @ok a st st' hst hn =>
    exact (hrest a st st' hst hn).mono (by omega)
  | refused => exact .refused
  | exhausted hx hx' => exact .exhausted (hx.bind hf) (hx'.bind hf')

lemma Alike.bind (hp : Alike k r n d p p') (hf : ∀ a, Alike k r (n - d) (e - d) (f a) (f' a)) :
    Alike k r n e (p >>= f) (p' >>= f') := by
  have hsinks := fun a => (hf a).sinks
  have hsinks' := fun a => (hf a).sinks'
  refine ⟨hp.sinks.bind hsinks, hp.sinks'.bind hsinks', fun st st' hst hlength => ?_⟩
  exact (hp.outcome st st' hst hlength).bind hsinks hsinks' fun a st₁ st₁' hst₁ hn =>
    (hf a).outcome st₁ st₁' hst₁ (by omega)

/-! ### Single steps -/

lemma run_peek?_nil {st : State} (hst : st.tokens = []) : peek?.run st = .ok (none, st) := by
  obtain ⟨tokens, line, depth, blocks, inRoutine⟩ := st
  cases hst
  rfl

lemma run_take?_nil {st : State} (hst : st.tokens = []) : take?.run st = .ok (none, st) := by
  obtain ⟨tokens, line, depth, blocks, inRoutine⟩ := st
  cases hst
  rfl

lemma run_peek?_malformed {st : State} {t : Located} {ts : List Located} {c : Cause}
    (hst : st.tokens = t :: ts) (ht : t.token = .malformed c) :
    peek?.run st = .error ⟨c, st.line⟩ := by
  obtain ⟨tokens, line, depth, blocks, inRoutine⟩ := st
  obtain ⟨token, l⟩ := t
  cases hst
  cases ht
  rfl

lemma run_take?_malformed {st : State} {t : Located} {ts : List Located} {c : Cause}
    (hst : st.tokens = t :: ts) (ht : t.token = .malformed c) :
    take?.run st = .error ⟨c, st.line⟩ := by
  rw [take?, StateT.run_bind, run_peek?_malformed hst ht]
  rfl

lemma Spent.malformed {st : State} (hst : Spent st) {t : Located} {ts : List Located}
    (hts : st.tokens = t :: ts) {c : Cause} (hc : t.token = .malformed c) : c = .syntaxError := by
  rcases hst t (hts ▸ List.mem_cons_self) with hdata | hmalformed
  · rw [hc] at hdata
    cases hdata
  · rw [hc] at hmalformed
    exact Token.malformed.inj hmalformed

lemma sinks_peek? : Sinks peek? := by
  intro st hst
  cases hts : st.tokens with
  | nil =>
    rw [run_peek?_nil hts]
    exact hst
  | cons t ts =>
    rcases t.token.malformed_or with ⟨c, hc⟩ | hne
    · rw [run_peek?_malformed hts hc]
      exact hst.malformed hts hc
    · rw [answers_peek? hts hne]
      exact hst

lemma sinks_take? : Sinks take? := by
  intro st hst
  cases hts : st.tokens with
  | nil =>
    rw [run_take?_nil hts]
    exact hst
  | cons t ts =>
    rcases t.token.malformed_or with ⟨c, hc⟩ | hne
    · rw [run_take?_malformed hts hc]
      exact hst.malformed hts hc
    · rw [answers_take? hts hne]
      exact fun u hu => hst u (hts ▸ List.mem_cons_of_mem _ hu)

/-- Two parses stand at a common token, or both behind all of them. -/
lemma Beside.next {st st' : State} (h : Beside k r st st') :
    (Spent st ∧ Spent st') ∨ ∃ t ts us, st.tokens = t :: ts ∧ st'.tokens = t.down k :: us ∧
      Trails k r t.token.inTag ts us := by
  obtain ⟨inTag, htokens⟩ := h.tokens
  generalize hts : st.tokens = ts, hus : st'.tokens = us at htokens
  cases htokens with
  | cons ht h => exact .inr ⟨_, _, _, rfl, rfl, h⟩
  | _ => exact .inl ⟨by simp [Spent, hts, Token.data?], by simp [Spent, hus, Token.data?]⟩

lemma Alike.peek : Alike k r n 0 peek? peek? := by
  refine ⟨sinks_peek?, sinks_peek?, fun st st' hst hlength => ?_⟩
  rcases hst.next with ⟨hspent, hspent'⟩ | ⟨t, ts, us, hts, hus, h⟩
  · exact .exhausted (sinks_peek? st hspent) (sinks_peek? st' hspent')
  rcases t.token.malformed_or with ⟨c, hc⟩ | hne
  · rw [run_peek?_malformed hts hc, run_peek?_malformed hus hc, hst.line]
    exact .refused
  · rw [answers_peek? hts hne, answers_peek? hus hne]
    exact .ok hst le_rfl

lemma Alike.take : Alike k r n 1 take? take? := by
  refine ⟨sinks_take?, sinks_take?, fun st st' hst hlength => ?_⟩
  rcases hst.next with ⟨hspent, hspent'⟩ | ⟨t, ts, us, hts, hus, h⟩
  · exact .exhausted (sinks_take? st hspent) (sinks_take? st' hspent')
  rcases t.token.malformed_or with ⟨c, hc⟩ | hne
  · rw [run_take?_malformed hts hc, run_take?_malformed hus hc, hst.line]
    exact .refused
  · rw [answers_take? hts hne, answers_take? hus hne]
    exact .ok ⟨⟨_, h⟩, rfl, hst.depth, hst.blocks, hst.inRoutine⟩ (by simp [hts])

lemma Alike.ite {c : Prop} [Decidable c] (h : Alike k r n d p p') (h' : Alike k r n d q q') :
    Alike k r n d (if c then p else q) (if c then p' else q') := by
  split
  · exact h
  · exact h'

/-- Two ways to come to a value that is used alike behind both. -/
lemma Alike.eitherBind {c : Prop} [Decidable c] (hp : Alike k r n d p p')
    (hq : Alike k r n d q q') (hf : ∀ a, Alike k r (n - d) (e - d) (f a) (f' a)) :
    Alike k r n e (if c then p >>= f else q >>= f) (if c then p' >>= f' else q' >>= f') :=
  .ite (hp.bind hf) (hq.bind hf)

/-- A step that is made only before some of what follows. -/
lemma Alike.iteFirst {c : Prop} [Decidable c] {s s' : Parse β} (hp : Alike k r n d p p')
    (hs : Alike k r n e s s') :
    Alike k r n e (if c then p >>= fun _ => s else s) (if c then p' >>= fun _ => s' else s') :=
  .ite (hp.bind fun _ => hs.mono (Nat.sub_le _ _) (Nat.sub_le _ _)) hs

/-- What is kept besides the tokens does not tell the texts apart. -/
lemma Alike.getBind {f f' : State → Parse β}
    (h : ∀ st st', st'.depth = st.depth → st'.blocks = st.blocks → st'.inRoutine = st.inRoutine →
      Alike k r n d (f st) (f' st')) : Alike k r n d (get >>= f) (get >>= f') :=
  ⟨fun st => (h st st rfl rfl rfl).sinks st, fun st => (h st st rfl rfl rfl).sinks' st,
    fun st st' hst => (h st st' hst.depth hst.blocks hst.inRoutine).outcome st st' hst⟩

lemma Alike.modifies {g : State → State} (hg : ∀ st, (g st).tokens = st.tokens)
    (h : ∀ st st', Beside k r st st' → Beside k r (g st) (g st')) :
    Alike k r n 0 (modify g) (modify g) := by
  have hsinks : Sinks (modify g) := by
    intro st hst
    change Spent (g st)
    rwa [Spent, hg]
  refine ⟨hsinks, hsinks, fun st st' hst _ => .ok (h st st' hst) ?_⟩
  rw [hg]
  exact le_rfl

lemma accept_bind (t : Option Token → Bool) (p q : Parse β) :
    (accept t >>= fun b => if b = true then p else q) =
      peek? >>= fun t? => if t t? = true then take? >>= fun _ => p else q := by
  rw [accept, bind_assoc]
  congr 1
  funext t?
  split <;> simp

/-- A token that is accepted is one less. -/
lemma Alike.ifAccept {t : Option Token → Bool} (hp : Alike k r (n - 1) (d - 1) p p')
    (hq : Alike k r n d q q') :
    Alike k r n d (accept t >>= fun b => if b = true then p else q)
      (accept t >>= fun b => if b = true then p' else q') := by
  rw [accept_bind, accept_bind]
  exact Alike.peek.bind fun _ => .ite (Alike.take.bind fun _ => hp) hq

lemma Alike.accepts (t : Option Token → Bool) : Alike k r n 0 (accept t) (accept t) :=
  Alike.peek.bind fun _ => .ite (Alike.take.bind fun _ => .pure true) (.pure false)

lemma Alike.expects (t : Option Token → Bool) : Alike k r n 1 (expect t) (expect t) :=
  Alike.take.bind fun _ => .ite (.pure ()) .refuse

lemma Alike.name : Alike k r n 1 ident ident := by
  refine Alike.take.bind fun t? => ?_
  split
  · exact .pure _
  · exact .refuse

lemma Alike.map (h : Alike k r n d p p') (g : α → β) : Alike k r n d (g <$> p) (g <$> p') := by
  rw [map_eq_pure_bind, map_eq_pure_bind]
  exact h.bind fun a => (Alike.pure (g a)).le (by omega)

lemma Alike.deepen (h : Alike k r n d p p') : Alike k r n d (deeper p) (deeper p') := by
  have hmodify (g : ℕ → ℕ) :
      Alike k r n 0 (modify fun st => { st with depth := g st.depth })
        (modify fun st => { st with depth := g st.depth }) := by
    refine .modifies (fun _ => rfl) fun st st' hst => ?_
    exact ⟨hst.tokens, hst.line, congrArg g hst.depth, hst.blocks, hst.inRoutine⟩
  refine .getBind fun st st' hdepth _ _ => ?_
  rw [hdepth]
  refine .ite .refuse ((hmodify (· + 1)).bind fun _ => h.bind fun a => ?_)
  exact ((hmodify (· - 1)).mono (Nat.sub_le _ _) le_rfl).bind fun _ =>
    (Alike.pure a).le (by omega)

end

end Parser

end BurnRate.Expression
