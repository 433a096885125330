import BurnRate.Proofs.BatchExpressions
import BurnRate.Proofs.WellFormedGroup

/-!
The throughput that a batch objective has to reach, as an expression.

The target divides the volume by the whole seconds of the deadline. Both can be read off the
expression again, whatever the volume is: there are only digits behind the last blank, and a volume
that stands without parentheses has none of its own.
-/

namespace BurnRate

/-! ### The last division of a text -/

/-- The last ` / ` of the expression stands between what is divided and a number. -/
structure IsLastDivision (e dividend : String) (n : ℕ) : Prop where
  eq : e = dividend ++ " / " ++ toString n
  last : ∀ u v, e = u ++ " / " ++ v → u.length ≤ dividend.length

/-- The last occurrence of a character is behind all others. -/
lemma length_le_of_append_cons {α : Type} {x : α} {as bs cs ds : List α}
    (h : as ++ x :: bs = cs ++ x :: ds) (hx : x ∉ bs) : cs.length ≤ as.length := by
  rcases List.append_eq_append_iff.1 h with ⟨es, rfl, hes⟩ | ⟨es, rfl, -⟩
  · cases es with
    | nil => rw [List.append_nil]
    | cons y es =>
      obtain ⟨-, hbs⟩ := List.cons.inj hes
      exact absurd (hbs ▸ List.mem_append_right es List.mem_cons_self) hx
  · rw [List.length_append]
    exact Nat.le_add_right _ _

lemma blank_notMem_toString (n : ℕ) : ' ' ∉ (toString n).toList := by
  intro hmem
  rw [Nat.toString_eq_repr, Nat.toList_repr] at hmem
  exact absurd (Nat.isDigit_of_mem_toDigits (by decide) (by decide) hmem) (by decide)

lemma toList_toString_injective : (fun n : ℕ => (toString n).toList).Injective := by
  intro m n h
  simp only [Nat.toString_eq_repr, Nat.toList_repr] at h
  rw [← Nat.ofDigitChars_ten_toDigits (n := m), h, Nat.ofDigitChars_ten_toDigits]

lemma isLastDivision (dividend : String) (n : ℕ) :
    IsLastDivision (dividend ++ " / " ++ toString n) dividend n := by
  refine ⟨rfl, fun u v h => ?_⟩
  have htext (s t : String) :
      (s ++ " / " ++ t).toList = (s.toList ++ [' ', '/']) ++ ' ' :: t.toList := by
    simp
  have hlists := congrArg String.toList h
  rw [htext, htext] at hlists
  -- the blank of a later division would be among the digits
  have hle := length_le_of_append_cons hlists (blank_notMem_toString n)
  rw [List.length_append, List.length_append, String.length_toList, String.length_toList] at hle
  exact Nat.le_of_add_le_add_right hle

/-- A text has one last division at most. -/
lemma IsLastDivision.unique {e u v : String} {m n : ℕ} (hu : IsLastDivision e u m)
    (hv : IsLastDivision e v n) : u = v ∧ m = n := by
  have hlength : u.length = v.length :=
    le_antisymm (hv.last _ _ hu.eq) (hu.last _ _ hv.eq)
  have heq := congrArg String.toList (hu.eq.symm.trans hv.eq)
  simp only [String.toList_append, List.append_assoc] at heq
  rw [← String.length_toList, ← String.length_toList] at hlength
  obtain ⟨htexts, hrest⟩ := List.append_inj heq hlength
  exact ⟨String.toList_inj.1 htexts, toList_toString_injective (List.append_cancel_left hrest)⟩

/-! ### What is divided -/

lemma isAlphanum_iff {c : Char} : c.isAlphanum = true ↔ IsLetterOrDigit c := by
  refine ⟨isLetterOrDigit_of_isAlphanum, fun h => ?_⟩
  have hparts : c.isAlphanum = (c.isUpper || c.isLower || c.isDigit) := rfl
  rw [hparts, Bool.or_eq_true, Bool.or_eq_true]
  rcases h with h | h | h
  · exact .inl (.inr (Bool.and_eq_true_iff.2 ⟨decide_eq_true h.1, decide_eq_true h.2⟩))
  · exact .inl (.inl (decide_eq_true h))
  · exact .inr (Bool.and_eq_true_iff.2 ⟨decide_eq_true h.1, decide_eq_true h.2⟩)

namespace BatchSlo

/-- Not empty, and only ASCII letters, digits, underscores, colons and points. -/
def IsPlain (v : String) : Prop :=
  v ≠ "" ∧ ∀ c ∈ v.toList, IsLetterOrDigit c ∨ c ∈ ['_', ':', '.']

lemma isOperand_iff {v : String} : isOperand v = true ↔ IsPlain v := by
  have hchar (c : Char) : (c.isAlphanum || c == '_' || c == ':' || c == '.') = true ↔
      IsLetterOrDigit c ∨ c ∈ ['_', ':', '.'] := by
    simp only [Bool.or_eq_true, isAlphanum_iff, beq_iff_eq, List.mem_cons, List.not_mem_nil,
      or_false, or_assoc]
  rw [isOperand, IsPlain, Bool.and_eq_true, List.all_eq_true, Bool.not_eq_true', ← Bool.not_eq_true,
    String.isEmpty_iff]
  simp only [hchar, ne_eq]

lemma operand_of_isPlain {v : String} (h : IsPlain v) : operand v = v := by
  rw [operand, if_pos (isOperand_iff.2 h)]

lemma operand_of_not_isPlain {v : String} (h : ¬ IsPlain v) : operand v = "(" ++ v ++ ")" := by
  rw [operand, if_neg (mt isOperand_iff.1 h)]

lemma parenthesized_ne (v : String) : "(" ++ v ++ ")" ≠ v := by
  intro h
  have hlength := congrArg String.length h
  rw [String.length_append, String.length_append] at hlength
  have hopen : "(".length = 1 := rfl
  omega

lemma operand_eq_self_iff {v : String} : operand v = v ↔ IsPlain v := by
  refine ⟨fun h => ?_, operand_of_isPlain⟩
  by_contra hplain
  rw [operand_of_not_isPlain hplain] at h
  exact parenthesized_ne v h

lemma operand_eq_parenthesized_iff {v : String} : operand v = "(" ++ v ++ ")" ↔ ¬ IsPlain v := by
  refine ⟨fun h hplain => ?_, operand_of_not_isPlain⟩
  rw [operand_of_isPlain hplain] at h
  exact parenthesized_ne v h.symm

/-- A plain text has no parentheses. -/
lemma not_isPlain_parenthesized (v : String) : ¬ IsPlain ("(" ++ v ++ ")") := by
  intro h
  exact absurd (h.2 '(' (by simp)) (by decide)

lemma operand_injective : operand.Injective := by
  intro v w h
  by_cases hv : IsPlain v <;> by_cases hw : IsPlain w
  -- where only one of them is plain, the texts differ in the parentheses
  · rwa [operand_of_isPlain hv, operand_of_isPlain hw] at h
  · rw [operand_of_isPlain hv, operand_of_not_isPlain hw] at h
    exact absurd (h ▸ hv) (not_isPlain_parenthesized w)
  · rw [operand_of_not_isPlain hv, operand_of_isPlain hw] at h
    exact absurd (h ▸ hw) (not_isPlain_parenthesized v)
  · rw [operand_of_not_isPlain hv, operand_of_not_isPlain hw] at h
    exact String.append_right_inj "(" |>.1 (String.append_left_inj ")" |>.1 h)

/-! ### Parentheses -/

/-- Parentheses that open, less those that close. -/
def nesting (cs : List Char) : ℤ := cs.count '(' - cs.count ')'

/-- No parenthesis closes before it opens, and none stays open. -/
structure IsPaired (v : String) : Prop where
  nonneg : ∀ cs, cs <+: v.toList → 0 ≤ nesting cs
  closed : nesting v.toList = 0

/-- One operand of a division: plain, or in parentheses of which the first closes as the last. -/
def IsOneOperand (d : String) : Prop :=
  IsPlain d ∨ nesting d.toList = 0 ∧
    ∀ cs, cs <+: d.toList → cs ≠ [] → cs ≠ d.toList → 0 < nesting cs

lemma nesting_open (cs : List Char) : nesting ('(' :: cs) = nesting cs + 1 := by
  rw [nesting, nesting, List.count_cons_self, List.count_cons_of_ne (by decide)]
  omega

lemma nesting_close (cs : List Char) : nesting (cs ++ [')']) = nesting cs - 1 := by
  rw [nesting, nesting, List.count_append, List.count_append, List.count_singleton_self]
  have hzero : List.count '(' [')'] = 0 := rfl
  rw [hzero]
  omega

/-- The volume is divided as a whole. -/
lemma isOneOperand_operand {v : String} (h : IsPaired v) : IsOneOperand (operand v) := by
  by_cases hplain : IsPlain v
  · rw [operand_of_isPlain hplain]
    exact .inl hplain
  · have htext : (operand v).toList = '(' :: (v.toList ++ [')']) := by
      rw [operand_of_not_isPlain hplain]
      simp
    refine .inr ?_
    rw [htext]
    refine ⟨by rw [nesting_open, nesting_close, h.closed]; rfl, fun cs hcs hne hall => ?_⟩
    rcases List.prefix_cons_iff.1 hcs with rfl | ⟨ds, rfl, hds⟩
    · exact absurd rfl hne
    · rcases List.prefix_concat_iff.1 hds with rfl | hds
      · exact absurd rfl hall
      · have hnonneg := h.nonneg ds hds
        rw [nesting_open]
        omega

/-! ### The target in the rules -/

/-- The rules hold the expression as the throughput to reach. -/
def HasTarget (s : BatchSlo) (e : String) : Prop :=
  ∃ rs, (Slo.batch s).rules = .ok rs ∧ ∃ r ∈ rs, r.name = Series.batchThroughputTarget ∧ r.expr = e

lemma hasTarget_iff {s : BatchSlo} {e : String} : s.HasTarget e ↔ e = s.targetText := by
  constructor
  · rintro ⟨rs, hrs, r, hr, hname, rfl⟩
    cases hrs
    exact expr_of_name s.mem_rules_target hr hname
  · rintro rfl
    exact ⟨_, rfl, _, s.mem_rules_target, rfl, rfl⟩

lemma targetText_isLastDivision (s : BatchSlo) :
    IsLastDivision s.targetText (operand (Text.trim s.volume)) s.deadline.seconds :=
  isLastDivision _ _

lemma targetText_eq_iff {s t : BatchSlo} : s.targetText = t.targetText ↔
    Text.trim s.volume = Text.trim t.volume ∧ s.deadline.seconds = t.deadline.seconds := by
  constructor
  · intro h
    have ht := t.targetText_isLastDivision
    rw [← h] at ht
    obtain ⟨hoperand, hseconds⟩ := s.targetText_isLastDivision.unique ht
    exact ⟨operand_injective hoperand, hseconds⟩
  · rintro ⟨hvolume, hseconds⟩
    rw [targetText, targetText, hvolume, hseconds]

end BatchSlo

namespace Slo

/-- **The target loses nothing** of the volume, and of the deadline nothing but the part of a
second. -/
theorem batch_targets_tellApart (s t : BatchSlo) :
    ∃ e f dividend,
      -- each objective has one target
      (∀ x, s.HasTarget x ↔ x = e) ∧ (∀ x, t.HasTarget x ↔ x = f) ∧
      (e = f ↔
        Text.trim s.volume = Text.trim t.volume ∧ s.deadline.seconds = t.deadline.seconds) ∧
      -- what stands before the last division is the volume
      IsLastDivision e dividend s.deadline.seconds ∧
      (dividend = Text.trim s.volume ↔ BatchSlo.IsPlain (Text.trim s.volume)) ∧
      (dividend = "(" ++ Text.trim s.volume ++ ")" ↔ ¬ BatchSlo.IsPlain (Text.trim s.volume)) ∧
      -- no operator of the volume is left outside of the parentheses
      (BatchSlo.IsPaired (Text.trim s.volume) → BatchSlo.IsOneOperand dividend) :=
  ⟨s.targetText, t.targetText, BatchSlo.operand (Text.trim s.volume),
    fun _ => BatchSlo.hasTarget_iff, fun _ => BatchSlo.hasTarget_iff, BatchSlo.targetText_eq_iff,
    s.targetText_isLastDivision, BatchSlo.operand_eq_self_iff,
    BatchSlo.operand_eq_parenthesized_iff, BatchSlo.isOneOperand_operand⟩

end Slo

end BurnRate
