import BurnRate.Proofs.PlainScalars
import BurnRate.Proofs.QuotedScalars
import BurnRate.Yaml.Token.Lexer

/-!
All that is written for a block is printable, so that the reader takes every character as it is.
-/

namespace BurnRate.Yaml

variable {c : Char} {cs : List Char}

/-- What holds of texts, and of lists and records if it holds of what they contain, holds of all
blocks. -/
theorem Block.induction {P : Block → Prop} (text : ∀ s, P (.text s))
    (list : ∀ bs : List Block, (∀ b ∈ bs, P b) → P (.list bs))
    (record : ∀ fs : List (String × Block), (∀ f ∈ fs, P f.2) → P (.record fs)) : ∀ b, P b
  | .text s => text s
  | .list bs => list bs fun b _ => Block.induction text list record b
  | .record fs => record fs fun f _ => Block.induction text list record f.2
termination_by b => b
decreasing_by
  · decreasing_tactic
  · next hf =>
      have hlt := List.sizeOf_lt_of_mem hf
      cases f
      simp only [Block.record.sizeOf_spec, Prod.mk.sizeOf_spec] at hlt ⊢
      omega

lemma all_spaces (k : ℕ) : (spaces k).all isPrintable = true := by
  rw [spaces, List.all_replicate]
  simp [isPrintable]

lemma all_indentLines (indent : ℕ) (atStart : Bool) (h : cs.all isPrintable = true) :
    (indentLines indent atStart cs).all isPrintable = true := by
  induction cs generalizing atStart with
  | nil => rfl
  | cons c cs ih =>
    rw [List.all_cons, Bool.and_eq_true] at h
    rw [indentLines]
    split
    · rw [List.all_cons, h.1, ih true h.2]
      rfl
    · rw [List.all_append, List.all_cons, h.1, ih false h.2]
      split <;> simp [all_spaces]

lemma all_singleQuotedBody (indent : ℕ) (h : cs.all isPrintable = true) :
    (singleQuotedBody indent cs).all isPrintable = true := by
  have hquoted : (cs.flatMap fun c => if c == '\'' then ['\'', '\''] else [c]).all isPrintable =
      true := by
    rw [List.all_eq_true] at h ⊢
    intro d hd
    obtain ⟨c, hc, hd⟩ := List.mem_flatMap.1 hd
    have hprint := h c hc
    split at hd <;> simp_all
  rw [singleQuotedBody, List.all_append, all_indentLines indent false hquoted]
  split <;> simp [all_spaces]

lemma all_literalMarks (cs : List Char) : (literalMarks cs).all isPrintable = true := by
  rw [literalMarks, List.all_append, Bool.and_eq_true]
  constructor
  · split <;> decide
  · split
    · decide
    · split <;> decide
    · split
      · decide
      · split <;> decide

lemma all_escapeChar (c : Char) : (escapeChar c).all isPrintable = true := by
  rcases escapeChar_cases c with ⟨h, hp, -⟩ | ⟨-, -, h⟩
  · simp [h, hp]
  · exact h

/-- In every style a text is written in printable characters. -/
lemma all_writeScalar (indent : ℕ) (cs : List Char) :
    (writeScalar indent cs).all isPrintable = true := by
  rw [writeScalar]
  cases hstyle : Style.choose cs with
  | plain =>
    have hp := (allowsPlain_iff.1 (choose_plain hstyle).1).1
    simpa using hp
  | singleQuoted =>
    have hp := (choose_singleQuoted hstyle).2.1
    have hbody := all_singleQuotedBody indent (List.all_eq_true.2 hp)
    simp [hbody, show isPrintable '\'' = true by decide]
  | doubleQuoted =>
    have hbody : (cs.flatMap escapeChar).all isPrintable = true := by
      rw [List.all_flatMap]
      simp [all_escapeChar]
    simp [hbody, show isPrintable '"' = true by decide]
  | literal =>
    have hp := (choose_literal hstyle).2
    have hbody := all_indentLines indent true (List.all_eq_true.2 hp)
    simp [hbody, all_literalMarks, show isPrintable '|' = true by decide,
      show isPrintable '\n' = true by decide]

lemma all_endLine (h : cs.all isPrintable = true) : (endLine cs).all isPrintable = true := by
  rw [endLine]
  split
  · exact h
  · rw [List.all_append, h]
    decide

/-- A block is written in printable characters, in its column and as a value. -/
def IsPrintable (b : Block) : Prop :=
  ∀ indent, (b.writeAt indent).all isPrintable = true ∧
    (Block.writeValue indent b).all isPrintable = true

lemma all_writeItems {bs : List Block} (hbs : ∀ b ∈ bs, IsPrintable b) (indent : ℕ) :
    (Block.writeItems indent bs).all isPrintable = true := by
  induction bs with
  | nil => rfl
  | cons b bs ih =>
    have hb := (hbs b (by simp) (indent + 2)).1
    have hrest := ih fun b hb => hbs b (by simp [hb])
    rw [Block.writeItems]
    simp [all_spaces, hb, hrest, show isPrintable '-' = true by decide,
      show isPrintable ' ' = true by decide]

lemma all_writeField {b : Block} (hb : IsPrintable b) (indent : ℕ) (key : String) :
    (Block.writeField indent (key, b)).all isPrintable = true := by
  have hcolon : isPrintable ':' = true := by decide
  rw [Block.writeField]
  split
  · rw [List.all_append, List.all_cons, all_writeScalar, (hb indent).2, hcolon]
    rfl
  · have hkey := all_endLine (all_writeScalar (indent + 2) key.toList)
    have hvalue := (hb (indent + 2)).1
    simp [all_spaces, hkey, hvalue, hcolon, show isPrintable '?' = true by decide,
      show isPrintable ' ' = true by decide]

lemma all_writeFields {fs : List (String × Block)} (hfs : ∀ f ∈ fs, IsPrintable f.2) (indent : ℕ) :
    (Block.writeFields indent fs).all isPrintable = true := by
  induction fs with
  | nil => rfl
  | cons f fs ih =>
    have hf := all_writeField (hfs f (by simp)) indent f.1
    have hrest := ih fun f hf => hfs f (by simp [hf])
    rw [Block.writeFields, List.all_append, List.all_append, all_spaces, hf, hrest]
    rfl

lemma isPrintable_block (b : Block) : IsPrintable b := by
  have hspace : isPrintable ' ' = true := by decide
  have hline : isPrintable '\n' = true := by decide
  induction b using Block.induction with
  | text s =>
    intro indent
    have htext := fun i => all_endLine (all_writeScalar i s.toList)
    refine ⟨htext indent, ?_⟩
    rw [Block.writeValue, List.all_cons, htext, hspace]
    rfl
  | list bs hbs =>
    intro indent
    cases bs with
    | nil =>
      constructor
      · rw [Block.writeAt]; decide
      · rw [Block.writeValue]; decide
    | cons b bs =>
      have hitems : ('-' :: ' ' :: Block.writeAt (indent + 2) b ++ Block.writeItems indent bs).all
          isPrintable = true := by
        have h := all_writeItems hbs indent
        rw [Block.writeItems, List.append_assoc, List.all_append, all_spaces] at h
        exact h
      refine ⟨hitems, ?_⟩
      rw [Block.writeValue, List.append_assoc, List.all_append, hitems, List.all_cons, all_spaces,
        hline]
      rfl
  | record fs hfs =>
    intro indent
    cases fs with
    | nil =>
      constructor
      · rw [Block.writeAt]; decide
      · rw [Block.writeValue]; decide
    | cons f fs =>
      have hfields (i : ℕ) :
          (Block.writeField i f ++ Block.writeFields i fs).all isPrintable = true := by
        have h := all_writeFields hfs i
        rw [Block.writeFields, List.append_assoc, List.all_append, all_spaces] at h
        exact h
      refine ⟨hfields indent, ?_⟩
      rw [Block.writeValue, List.append_assoc, List.all_append, hfields, List.all_cons, all_spaces,
        hline]
      rfl

/-! ### Printable text is read as it is -/

lemma isAllowed_of_printable (h : isPrintable c = true) : isAllowed c = true := by
  simp only [isPrintable, isAllowed, Bool.or_eq_true, Bool.and_eq_true, decide_eq_true_eq,
    beq_iff_eq, bne_iff_ne] at h ⊢
  omega

lemma unifyBreaks_of_printable (h : cs.all isPrintable = true) : unifyBreaks cs = cs := by
  induction cs with
  | nil => rfl
  | cons c cs ih =>
    rw [List.all_cons, Bool.and_eq_true] at h
    have hr : c ≠ '\r' := ne_of_printable h.1 (by decide)
    have hn : c ≠ '\x85' := ne_of_printable h.1 (by decide)
    rw [unifyBreaks, ih h.2]
    all_goals
      intros
      simp_all

lemma startOf_of_printable (h : cs.all isPrintable = true) : Token.startOf cs = ⟨cs, 0, 0⟩ := by
  unfold Token.startOf
  split
  · rw [List.all_cons, show isPrintable '\ufeff' = false by decide] at h
    cases h
  · rfl

end BurnRate.Yaml
