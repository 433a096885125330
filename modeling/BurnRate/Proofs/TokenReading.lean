import BurnRate.Proofs.LiteralScalars
import BurnRate.Proofs.PlainScalars
import BurnRate.Proofs.QuotedScalars
import BurnRate.Yaml.Token.Lexer

/-!
The lexer outside of brackets: one state reads on to another.

What a run does from a state depends only on the place to which the state skips blanks and line
ends, so states that skip to the same place are as good as equal.
-/

namespace BurnRate.Yaml.Token

open LexState

variable {c : Char} {cs tail : List Char} {line col : ℕ} {ts : List Token} {is : List ℕ}
  {a : Bool} {k? : Option Candidate} {s t u : LexState}

/-- A state outside of brackets. -/
def LexState.inBlock (cursor : Cursor) (ts : List Token) (is : List ℕ) (a : Bool)
    (k? : Option Candidate) : LexState :=
  ⟨cursor, ts.toArray, is, a, k?, []⟩

/-- The start of a line. -/
def LexState.atLine (cs : List Char) (line : ℕ) (ts : List Token) (is : List ℕ)
    (k? : Option Candidate) : LexState :=
  inBlock ⟨cs, line, 0⟩ ts is true k?

/-- The column behind that of the innermost collection. -/
def marginOf : List ℕ → ℕ
  | [] => 0
  | i :: _ => i + 1

lemma margin_inBlock (cursor : Cursor) :
    (inBlock cursor ts is a k?).margin = marginOf is := by
  cases is <;> rfl

/-- From the first state the lexer comes to the second, in no more steps than it moves over
characters. -/
def Reads (s t : LexState) : Prop :=
  ∃ n, n + t.cursor.rest.length ≤ s.cursor.rest.length ∧ ∀ fuel, run? s (fuel + n) = run? t fuel

lemma Reads.refl (s : LexState) : Reads s s := ⟨0, by omega, fun _ => rfl⟩

lemma Reads.trans (h : Reads s t) (h' : Reads t u) : Reads s u := by
  obtain ⟨m, hm, hs⟩ := h
  obtain ⟨n, hn, ht⟩ := h'
  refine ⟨n + m, by omega, fun fuel => ?_⟩
  rw [← Nat.add_assoc, hs, ht]

lemma run?_congr (h : s.skip = t.skip) (fuel : ℕ) : run? s fuel = run? t fuel := by
  cases fuel with
  | zero => rfl
  | succ fuel => rw [run?, run?, h]

lemma Reads.of_skip (h : s.skip = t.skip)
    (hlen : t.cursor.rest.length ≤ s.cursor.rest.length) : Reads s t :=
  ⟨0, by omega, fun fuel => run?_congr h fuel⟩

/-- One token is read. -/
lemma Reads.step {s' : LexState} (hne : s.skip.cursor.rest ≠ []) (hstep : s.skip.step? = some s')
    (hskip : s'.skip = t.skip) (hlen : t.cursor.rest.length < s.cursor.rest.length) :
    Reads s t := by
  refine ⟨1, by omega, fun fuel => ?_⟩
  have hrest : s.skip.cursor.rest.isEmpty = false := by simpa using hne
  rw [run?]
  simp only [hrest, hstep, Bool.false_eq_true, if_false, Option.bind_some]
  exact run?_congr hskip fuel

/-! ### Gaps -/

lemma skip_inBlock_congr {cs' : List Char} {line' col' : ℕ} {a' : Bool}
    (h : skipGap false a false line col cs = skipGap false a' false line' col' cs') :
    (inBlock ⟨cs, line, col⟩ ts is a k?).skip = (inBlock ⟨cs', line', col'⟩ ts is a' k?).skip := by
  simp only [skip, inBlock, inFlow, List.isEmpty_nil, Bool.not_true, h]

lemma skip_break :
    (inBlock ⟨'\n' :: cs, line, col⟩ ts is a k?).skip = (atLine cs (line + 1) ts is k?).skip := by
  refine skip_inBlock_congr ?_
  rw [skipGap, if_pos (by decide)]
  simp

lemma skip_space :
    (inBlock ⟨' ' :: cs, line, col⟩ ts is a k?).skip =
      (inBlock ⟨cs, line, col + 1⟩ ts is a k?).skip := by
  refine skip_inBlock_congr ?_
  rw [skipGap, if_neg (by decide), if_pos (by simp)]

lemma skip_spaces (k : ℕ) :
    (inBlock ⟨spaces k ++ cs, line, col⟩ ts is a k?).skip =
      (inBlock ⟨cs, line, col + k⟩ ts is a k?).skip := by
  induction k generalizing col with
  | zero => rfl
  | succ k ih =>
    rw [spaces_succ, List.cons_append, skip_space, ih, Nat.add_right_comm, Nat.add_assoc]

lemma skipGap_token (hs : isSpacing c = false) (hb : isBreak c = false) (hc : c ≠ '#') :
    skipGap false a false line col (c :: cs) = (⟨c :: cs, line, col⟩, a) := by
  simp only [isSpacing, Bool.or_eq_false_iff] at hs
  simp [skipGap, hs.1, hs.2, hb, hc]

lemma skip_atNext {margin : ℕ} (h : Follows margin tail) :
    (inBlock (.atNext line tail) ts is true k?).skip = (atLine tail line ts is k?).skip := by
  cases h with
  | done => rfl
  | line k c cs hk hs hb hc => rw [Cursor.atNext_line line k hs, atLine, skip_spaces, Nat.zero_add]

/-- A token in or behind the column of the innermost collection closes none. -/
lemma skip_token (hs : isSpacing c = false) (hb : isBreak c = false) (hc : c ≠ '#')
    (hm : marginOf is ≤ col + 1) :
    (inBlock ⟨c :: cs, line, col⟩ ts is a k?).skip = inBlock ⟨c :: cs, line, col⟩ ts is a k? := by
  simp only [skip, inBlock, inFlow, List.isEmpty_nil, Bool.not_true, skipGap_token hs hb hc,
    closeBlocks, Bool.false_eq_true, if_false]
  cases is with
  | nil => simp
  | cons j is =>
    have : j ≤ col := Nat.le_of_succ_le_succ hm
    simp [this]

/-- At the end of the text all collections end. -/
lemma run?_end (hk : k?.any (·.isRequired) = false) (fuel : ℕ) :
    run? (atLine [] line ts is k?) (fuel + 1) = some
      (inBlock ⟨[], line, 0⟩ (ts ++ List.replicate is.length .blockEnd) [] false none) := by
  have hlen : (is.dropWhile fun x => !decide (x ≤ 0)).length ≤ is.length :=
    (List.dropWhile_sublist _).length_le
  have hall : ∀ kept : List ℕ, kept.dropWhile (fun _ => true) = [] := by
    intro kept
    induction kept with
    | nil => rfl
    | cons j kept ih => rw [List.dropWhile_cons_of_pos rfl, ih]
  rw [run?]
  simp only [atLine, inBlock, skip, skipGap, inFlow, List.isEmpty_nil, Bool.not_true, closeBlocks,
    Bool.false_eq_true, if_false, if_true, endBlocks?, dropCandidate?, hk, Bool.not_false, hall,
    Option.bind_eq_bind, Option.bind_some, List.length_nil, Nat.sub_zero]
  generalize (is.dropWhile fun x => !decide (x ≤ 0)).length = n at hlen ⊢
  have hsum : is.length - n + n = is.length := by omega
  simp only [← List.toArray_replicate, List.append_toArray, List.append_assoc,
    List.replicate_append_replicate, hsum]

/-- A collection ends before what follows to the left of it. -/
lemma Reads.close {j : ℕ} (h : Follows j tail) (hk : k?.any (·.isRequired) = false) :
    Reads (atLine tail line ts (j :: is) k?) (atLine tail line (ts ++ [.blockEnd]) is k?) := by
  cases h with
  | done =>
    refine ⟨0, by simp [atLine, inBlock], fun fuel => ?_⟩
    cases fuel with
    | zero => rfl
    | succ fuel =>
      rw [run?_end hk, run?_end hk]
      simp [List.replicate_succ]
  | line k c cs hlt hs hb hc =>
    refine .of_skip ?_ (Nat.le_refl _)
    rw [atLine, atLine, skip_spaces, skip_spaces]
    have hj : ¬ j ≤ k := by omega
    have hlen : (is.dropWhile fun x => !decide (x ≤ k)).length ≤ is.length :=
      (List.dropWhile_sublist _).length_le
    simp [skip, inBlock, inFlow, skipGap_token hs hb hc, closeBlocks, hj, Nat.succ_sub hlen,
      Array.replicate_succ']

end BurnRate.Yaml.Token
