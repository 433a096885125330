import BurnRate.Yaml.Block
import BurnRate.Yaml.Token.Cursor
import Mathlib.Tactic.Common

/-!
Lines of a block document: their indentation, what may follow a line, the classes of the characters
in them, and what the style of a scalar says about its text.
-/

namespace BurnRate.Yaml

variable {c d : Char} {cs tail : List Char}

/-! ### Classes of characters -/

lemma ne_of_printable (h : isPrintable c = true) (hd : isPrintable d = false) : c ≠ d := by
  rintro rfl
  rw [h] at hd
  cases hd

lemma isSpacing_of_printable (h : isPrintable c = true) : isSpacing c = isSpace c := by
  have : (c == '\t') = false := by simpa using ne_of_printable h (d := '\t') (by decide)
  simp [isSpacing, isSpace, this]

/-- The places behind which the line of a block can go on: those where a line of structure or
nothing more follows, left of a margin. -/
inductive Follows (margin : ℕ) : List Char → Prop where
  | done : Follows margin []
  | line (k : ℕ) (c : Char) (cs : List Char) (hk : k < margin) (hs : isSpacing c = false)
    (hb : isBreak c = false) (hc : c ≠ '#') : Follows margin (spaces k ++ c :: cs)

lemma Follows.mono {m n : ℕ} (h : Follows m tail) (hmn : m ≤ n) : Follows n tail := by
  cases h with
  | done => exact .done
  | line k c cs hk hs hb hc => exact .line k c cs (Nat.lt_of_lt_of_le hk hmn) hs hb hc

/-- The cursor in front of what follows. -/
def Cursor.atNext (line : ℕ) (rest : List Char) : Cursor :=
  ⟨rest.dropWhile isSpace, line, (rest.takeWhile isSpace).length⟩

lemma spaces_succ (k : ℕ) : spaces (k + 1) = ' ' :: spaces k := rfl

lemma takeWhile_spaces (k : ℕ) (hc : isSpace c = false) (cs : List Char) :
    (spaces k ++ c :: cs).takeWhile isSpace = spaces k := by
  induction k with
  | zero => simp [spaces, hc]
  | succ k ih => rw [spaces_succ, List.cons_append, List.takeWhile_cons_of_pos (by decide), ih]

lemma dropWhile_spaces (k : ℕ) (hc : isSpace c = false) (cs : List Char) :
    (spaces k ++ c :: cs).dropWhile isSpace = c :: cs := by
  induction k with
  | zero => simp [spaces, hc]
  | succ k ih => rw [spaces_succ, List.cons_append, List.dropWhile_cons_of_pos (by decide), ih]

lemma isSpace_of_isSpacing (h : isSpacing c = false) : isSpace c = false := by
  simp only [isSpacing, Bool.or_eq_false_iff] at h
  exact h.1

lemma Cursor.atNext_line (line k : ℕ) (hs : isSpacing c = false) (cs : List Char) :
    Cursor.atNext line (spaces k ++ c :: cs) = ⟨c :: cs, line, k⟩ := by
  have hc := isSpace_of_isSpacing hs
  simp only [Cursor.atNext, takeWhile_spaces k hc, dropWhile_spaces k hc]
  simp [spaces]

@[simp] lemma Cursor.atNext_nil (line : ℕ) : Cursor.atNext line [] = ⟨[], line, 0⟩ := rfl

/-! ### Ends of lines -/

/-- The place behind a text is the start of a line. -/
def endsLine (before : Bool) (cs : List Char) : Bool := (cs.getLast?.map isBreak).getD before

@[simp] lemma endsLine_nil (before : Bool) : endsLine before [] = before := rfl

lemma endsLine_cons (before : Bool) (c : Char) (cs : List Char) :
    endsLine before (c :: cs) = endsLine (isBreak c) cs := by
  rw [endsLine, endsLine, List.getLast?_cons]
  cases cs.getLast? <;> rfl

lemma endsLine_concat (before : Bool) (cs : List Char) (c : Char) :
    endsLine before (cs ++ [c]) = isBreak c := by simp [endsLine]

lemma endsLine_append (before : Bool) (as bs : List Char) :
    endsLine before (as ++ bs) = endsLine (endsLine before as) bs := by
  induction as generalizing before with
  | nil => rfl
  | cons a as ih => rw [List.cons_append, endsLine_cons, endsLine_cons, ih]

lemma any_getLast?_eq (cs : List Char) : cs.getLast?.any isBreak = endsLine false cs := by
  rw [endsLine]
  cases cs.getLast? <;> rfl

lemma endLine_eq (cs : List Char) :
    endLine cs = if endsLine false cs then cs else cs ++ ['\n'] := by
  rw [endLine, any_getLast?_eq]

lemma endLine_concat (h : isBreak c = false) (cs : List Char) :
    endLine (cs ++ [c]) = cs ++ [c, '\n'] := by
  rw [endLine_eq, endsLine_concat, h]
  simp

lemma indentLines_append (indent : ℕ) (atStart : Bool) (as bs : List Char) :
    indentLines indent atStart (as ++ bs) =
      indentLines indent atStart as ++ indentLines indent (endsLine atStart as) bs := by
  induction as generalizing atStart with
  | nil => rfl
  | cons a as ih =>
    rw [List.cons_append, indentLines, indentLines, endsLine_cons]
    by_cases h : isBreak a = true
    · simp [h, ih]
    · rw [Bool.not_eq_true] at h
      simp [h, ih]

lemma endsLine_indentLines (indent : ℕ) (atStart : Bool) (cs : List Char) :
    endsLine atStart (indentLines indent atStart cs) = endsLine atStart cs := by
  induction cs generalizing atStart with
  | nil => rfl
  | cons c cs ih =>
    rw [indentLines, endsLine_cons]
    by_cases h : isBreak c = true
    · rw [if_pos h, endsLine_cons, h, ih]
    · rw [Bool.not_eq_true] at h
      rw [if_neg (by simp [h]), endsLine_append, endsLine_cons, h, ih]

/-! ### The style of a text -/

lemma ne_nil_of_isPlainText (h : isPlainText cs = true) : cs ≠ [] := by
  rintro rfl
  simp [isPlainText, Scalar.ofPlain, Scalar.isText] at h

lemma choose_plain (h : Style.choose cs = .plain) :
    allowsPlain cs = true ∧ isPlainText cs = true := by
  unfold Style.choose at h
  split at h
  · split at h <;> cases h
  · split at h
    · next hp => simp only [Bool.and_eq_true] at hp; exact ⟨hp.2, hp.1⟩
    · split at h <;> cases h

lemma choose_singleQuoted (h : Style.choose cs = .singleQuoted) :
    '\n' ∉ cs ∧ (∀ c ∈ cs, isPrintable c = true) ∧ holdsPair isSpace isBreak cs = false ∧
      holdsPair isBreak isSpace cs = false := by
  unfold Style.choose at h
  split at h
  · split at h <;> cases h
  · next hn =>
    split at h
    · cases h
    · split at h
      · next hs =>
        simp only [allowsSingleQuoted, needsEscape, Bool.and_eq_true, Bool.not_eq_true',
          Bool.or_eq_false_iff, Bool.not_eq_false', List.all_eq_true] at hs
        exact ⟨by simpa using hn, hs.1.2, hs.1.1, hs.2⟩
      · cases h

lemma choose_literal (h : Style.choose cs = .literal) :
    '\n' ∈ cs ∧ ∀ c ∈ cs, isPrintable c = true := by
  unfold Style.choose at h
  split at h
  · next hn =>
    split at h
    · next hs =>
      simp only [allowsLiteral, needsEscape, Bool.and_eq_true, Bool.not_eq_true',
        Bool.or_eq_false_iff, Bool.not_eq_false', List.all_eq_true] at hs
      exact ⟨by simpa using hn, hs.1.2⟩
    · cases h
  · split at h
    · cases h
    · split at h <;> cases h

end BurnRate.Yaml
