import BurnRate.Decimal.Binary
import Mathlib.Algebra.Order.Field.Power
import Mathlib.Data.Rat.Cast.Order
import Mathlib.Tactic.Linarith
import Mathlib.Tactic.Positivity
import Mathlib.Tactic.Ring

/-!
The numbers that round to a binary number.

A number is rounded to the nearest representable one, and halfway between two to the one with the
even significand. What rounds to a representable number is therefore an interval around it, which
reaches halfway to its neighbours, and no number rounds to two.
-/

namespace BurnRate.Decimal

/-- A representable number `m · 2^q` in the form that determines `m` and `q`: all 53 bits are in
use, or the exponent is the least. There is no greatest exponent, as in the rule of rounding: what
rounds to a number beyond the range is infinite. -/
structure IsCanonical (m : ℕ) (q : ℤ) : Prop where
  bits : m < 2 ^ 53
  least : -1074 ≤ q
  full : 2 ^ 52 ≤ m ∨ q = -1074

def binaryValue (m : ℕ) (q : ℤ) : ℚ := m * 2 ^ q

/-- No representable number is nearer to `x` than `m · 2^q`, and if another one is as near, then
`m` is even. -/
structure IsNearest (x : ℚ) (m : ℕ) (q : ℤ) : Prop where
  canonical : IsCanonical m q
  le {m' : ℕ} {q' : ℤ} (h : IsCanonical m' q') : |x - binaryValue m q| ≤ |x - binaryValue m' q'|
  even {m' : ℕ} {q' : ℤ} (h : IsCanonical m' q') (hne : (m', q') ≠ (m, q))
    (htie : |x - binaryValue m q| = |x - binaryValue m' q'|) : Even m

/-- The distance from a number to the next smaller one. -/
def gapBelow (m : ℕ) (q : ℤ) : ℚ := if Binary.isBoundary m q then 2 ^ (q - 1) else 2 ^ q

/-- `x` lies between the points halfway to the neighbours of `m · 2^q`, or is one of them and `m`
is even. -/
def RoundsTo (m : ℕ) (q : ℤ) (x : ℚ) : Prop :=
  if Even m then
    binaryValue m q - gapBelow m q / 2 ≤ x ∧ x ≤ binaryValue m q + 2 ^ q / 2
  else binaryValue m q - gapBelow m q / 2 < x ∧ x < binaryValue m q + 2 ^ q / 2

variable {m m' : ℕ} {q q' : ℤ} {x y z : ℚ}

/-! ### Values -/

lemma binaryValue_lt_iff : binaryValue m q < binaryValue m' q ↔ m < m' := by
  have hpos : (0 : ℚ) < 2 ^ q := by positivity
  rw [binaryValue, binaryValue, mul_lt_mul_iff_left₀ hpos, Nat.cast_lt]

lemma binaryValue_succ (m : ℕ) (q : ℤ) : binaryValue (m + 1) q = binaryValue m q + 2 ^ q := by
  rw [binaryValue, binaryValue]
  push_cast
  ring

/-- The same number with a smaller exponent. -/
lemma binaryValue_rescale (m : ℕ) (q : ℤ) (n : ℕ) :
    binaryValue m (q + n) = binaryValue (m * 2 ^ n) q := by
  rw [binaryValue, binaryValue, zpow_add₀ (by norm_num), zpow_natCast]
  push_cast
  ring

lemma binaryValue_double (m : ℕ) (q : ℤ) : binaryValue m q = binaryValue (2 * m) (q - 1) := by
  have h := binaryValue_rescale m (q - 1) 1
  rwa [Nat.cast_one, sub_add_cancel, pow_one, mul_comm] at h

lemma two_zpow_eq (q : ℤ) : (2 : ℚ) ^ q = 2 * 2 ^ (q - 1) := by
  rw [← zpow_one_add₀ (by norm_num)]
  congr 1
  ring

lemma gapBelow_pos (m : ℕ) (q : ℤ) : 0 < gapBelow m q := by
  unfold gapBelow
  split <;> positivity

lemma gapBelow_le (m : ℕ) (q : ℤ) : gapBelow m q ≤ 2 ^ q := by
  have hpos : (0 : ℚ) < 2 ^ (q - 1) := by positivity
  unfold gapBelow
  split
  · rw [two_zpow_eq q]
    linarith
  · exact le_rfl

/-- Among representable numbers, the one with the greater exponent is greater. -/
lemma IsCanonical.binaryValue_lt (h : IsCanonical m q) (h' : IsCanonical m' q') (hq : q < q') :
    binaryValue m q < binaryValue m' q' := by
  obtain ⟨n, rfl⟩ : ∃ n : ℕ, q' = q + (n + 1 : ℕ) := ⟨(q' - q - 1).toNat, by omega⟩
  have hfull : 2 ^ 52 ≤ m' := h'.full.resolve_right (by have := h.least; omega)
  rw [binaryValue_rescale, binaryValue_lt_iff]
  calc m < 2 ^ 52 * 2 := h.bits
    _ ≤ m' * 2 ^ (n + 1) := Nat.mul_le_mul hfull (Nat.le_self_pow (by omega) 2)

lemma IsCanonical.eq_of_binaryValue_eq (h : IsCanonical m q) (h' : IsCanonical m' q')
    (heq : binaryValue m q = binaryValue m' q') : m = m' ∧ q = q' := by
  rcases lt_trichotomy q q' with hq | rfl | hq
  · exact absurd heq (h.binaryValue_lt h' hq).ne
  · refine ⟨le_antisymm ?_ ?_, rfl⟩
    · exact not_lt.1 fun hlt => (binaryValue_lt_iff.2 hlt).ne heq.symm
    · exact not_lt.1 fun hlt => (binaryValue_lt_iff.2 hlt).ne heq
  · exact absurd heq (h'.binaryValue_lt h hq).ne'

/-! ### Neighbours -/

/-- The next greater number is at a distance of `2^q`. -/
lemma IsCanonical.add_le (h : IsCanonical m q) (h' : IsCanonical m' q')
    (hlt : binaryValue m q < binaryValue m' q') : binaryValue m q + 2 ^ q ≤ binaryValue m' q' := by
  have hq : q ≤ q' := not_lt.1 fun hq => lt_asymm hlt (h'.binaryValue_lt h hq)
  obtain ⟨n, rfl⟩ : ∃ n : ℕ, q' = q + n := ⟨(q' - q).toNat, by omega⟩
  rw [binaryValue_rescale] at hlt ⊢
  rw [← binaryValue_succ, ← not_lt, binaryValue_lt_iff]
  have := binaryValue_lt_iff.1 hlt
  omega

/-- The next smaller number is at a distance of `gapBelow m q`. -/
lemma IsCanonical.add_gapBelow_le (h : IsCanonical m q) (h' : IsCanonical m' q')
    (hlt : binaryValue m' q' < binaryValue m q) :
    binaryValue m' q' + gapBelow m q ≤ binaryValue m q := by
  have hq : q' ≤ q := not_lt.1 fun hq => lt_asymm hlt (h.binaryValue_lt h' hq)
  rcases hq.eq_or_lt with rfl | hq
  · have hgap := gapBelow_le m q'
    have hadd := h'.add_le h hlt
    linarith
  · -- the greatest number with a smaller exponent is at least as great
    have hleast := h'.least
    have htop : IsCanonical (2 ^ 53 - 1) (q - 1) := ⟨by norm_num, by omega, .inl (by norm_num)⟩
    have hle : binaryValue m' q' ≤ binaryValue (2 ^ 53 - 1) (q - 1) := by
      rcases (Int.le_sub_one_of_lt hq).eq_or_lt with rfl | hq
      · rw [← not_lt, binaryValue_lt_iff]
        have := h'.bits
        omega
      · exact (h'.binaryValue_lt htop hq).le
    have hpos : (0 : ℚ) < 2 ^ (q - 1) := by positivity
    have hfull : 2 ^ 52 ≤ m := h.full.resolve_right (by omega)
    have htwo := two_zpow_eq q
    rw [binaryValue] at hle ⊢
    rw [binaryValue_double m q, binaryValue]
    by_cases hboundary : Binary.isBoundary m q = true
    · have hm : m = 2 ^ 52 := by
        simp only [Binary.isBoundary, Bool.and_eq_true, beq_iff_eq] at hboundary
        exact hboundary.1
      rw [gapBelow, if_pos hboundary, hm]
      rw [binaryValue] at hle
      push_cast at hle ⊢
      linarith
    · have hm : 2 ^ 52 + 1 ≤ m := by
        refine Nat.succ_le_of_lt (hfull.lt_of_ne fun heq => hboundary ?_)
        simp [Binary.isBoundary, ← heq]
        omega
      have hm : (2 ^ 52 + 1 : ℚ) ≤ m := by exact_mod_cast hm
      rw [gapBelow, if_neg hboundary]
      rw [binaryValue] at hle
      push_cast at hle ⊢
      nlinarith

lemma IsCanonical.exists_next (h : IsCanonical m q) :
    ∃ m' q', IsCanonical m' q' ∧ binaryValue m' q' = binaryValue m q + 2 ^ q := by
  obtain ⟨hbits, hleast, hfull⟩ := h
  by_cases hlast : m + 1 < 2 ^ 53
  · exact ⟨m + 1, q, ⟨hlast, hleast, hfull.imp_left (by omega)⟩, binaryValue_succ m q⟩
  · have hm : m + 1 = 2 ^ 53 := by omega
    refine ⟨2 ^ 52, q + 1, ⟨by norm_num, by omega, .inl le_rfl⟩, ?_⟩
    rw [← binaryValue_succ, hm, binaryValue_double, add_sub_cancel_right]
    rfl

lemma IsCanonical.exists_previous (h : IsCanonical m q) (hm : 0 < m) :
    ∃ m' q', IsCanonical m' q' ∧ binaryValue m' q' = binaryValue m q - gapBelow m q := by
  obtain ⟨hbits, hleast, hfull⟩ := h
  by_cases hboundary : Binary.isBoundary m q = true
  · have hparts := hboundary
    simp only [Binary.isBoundary, Bool.and_eq_true, beq_iff_eq, decide_eq_true_eq] at hparts
    refine ⟨2 ^ 53 - 1, q - 1, ⟨by norm_num, by omega, .inl (by norm_num)⟩, ?_⟩
    rw [gapBelow, if_pos hboundary, eq_sub_iff_add_eq, ← binaryValue_succ, binaryValue_double m q,
      hparts.1]
    norm_num
  · have hm' : m ≠ 2 ^ 52 ∨ q = -1074 := by
      by_contra hboth
      rw [not_or, not_not] at hboth
      refine hboundary ?_
      simp [Binary.isBoundary, hboth.1]
      omega
    refine ⟨m - 1, q, ⟨by omega, hleast, by omega⟩, ?_⟩
    rw [gapBelow, if_neg hboundary, eq_sub_iff_add_eq, ← binaryValue_succ, Nat.sub_add_cancel hm]

/-! ### What rounds to a number -/

/-- The smaller of two numbers is the nearer one below the point halfway between them. -/
lemma abs_sub_le_abs_sub_iff (h : y < z) : |x - y| ≤ |x - z| ↔ 2 * x ≤ y + z := by
  have hsq : (x - z) ^ 2 - (x - y) ^ 2 = (z - y) * (y + z - 2 * x) := by ring
  rw [← sq_le_sq, ← sub_nonneg, hsq, mul_nonneg_iff_of_pos_left (sub_pos.2 h), sub_nonneg]

/-- The greater of two numbers is the nearer one above the point halfway between them. -/
lemma abs_sub_le_abs_sub_iff' (h : y < z) : |x - z| ≤ |x - y| ↔ y + z ≤ 2 * x := by
  have hsq : (x - y) ^ 2 - (x - z) ^ 2 = (z - y) * (2 * x - (y + z)) := by ring
  rw [← sq_le_sq, ← sub_nonneg, hsq, mul_nonneg_iff_of_pos_left (sub_pos.2 h), sub_nonneg]

lemma RoundsTo.le (h : RoundsTo m q x) :
    binaryValue m q - gapBelow m q / 2 ≤ x ∧ x ≤ binaryValue m q + 2 ^ q / 2 := by
  unfold RoundsTo at h
  split at h
  · exact h
  · exact ⟨h.1.le, h.2.le⟩

lemma roundsTo_of_lt (hlow : binaryValue m q - gapBelow m q / 2 < x)
    (hhigh : x < binaryValue m q + 2 ^ q / 2) : RoundsTo m q x := by
  unfold RoundsTo
  split
  · exact ⟨hlow.le, hhigh.le⟩
  · exact ⟨hlow, hhigh⟩

lemma roundsTo_self (m : ℕ) (q : ℤ) : RoundsTo m q (binaryValue m q) := by
  have hgap := gapBelow_pos m q
  have hpos : (0 : ℚ) < 2 ^ q := by positivity
  exact roundsTo_of_lt (by linarith) (by linarith)

/-- What rounds to a number is an interval. -/
lemma RoundsTo.between (hx : RoundsTo m q x) (hz : RoundsTo m q z) (hxy : x ≤ y) (hyz : y ≤ z) :
    RoundsTo m q y := by
  unfold RoundsTo at hx hz ⊢
  split
  · next heven =>
    rw [if_pos heven] at hx hz
    exact ⟨hx.1.trans hxy, hyz.trans hz.2⟩
  · next hodd =>
    rw [if_neg hodd] at hx hz
    exact ⟨hx.1.trans_le hxy, hyz.trans_lt hz.2⟩

lemma RoundsTo.even_of_eq (h : RoundsTo m q x) (hend : x = binaryValue m q - gapBelow m q / 2 ∨
    x = binaryValue m q + 2 ^ q / 2) : Even m := by
  by_contra hodd
  rw [RoundsTo, if_neg hodd] at h
  rcases hend with hend | hend
  · exact h.1.ne' hend
  · exact h.2.ne hend

lemma isNearest_of_roundsTo (h : IsCanonical m q) (hx : RoundsTo m q x) : IsNearest x m q := by
  obtain ⟨hlow, hhigh⟩ := hx.le
  -- each other number is on one side of this one, at least as far away as the neighbour there
  have hother {m' : ℕ} {q' : ℤ} (h' : IsCanonical m' q') (hne : (m', q') ≠ (m, q)) :
      |x - binaryValue m q| ≤ |x - binaryValue m' q'| ∧
        (|x - binaryValue m' q'| ≤ |x - binaryValue m q| → Even m) := by
    have hvalue : binaryValue m q ≠ binaryValue m' q' := by
      intro heq
      obtain ⟨rfl, rfl⟩ := h.eq_of_binaryValue_eq h' heq
      exact hne rfl
    rcases hvalue.lt_or_gt with hlt | hlt
    · have hnext := h.add_le h' hlt
      rw [abs_sub_le_abs_sub_iff hlt, abs_sub_le_abs_sub_iff' hlt]
      refine ⟨by linarith, fun hfar => hx.even_of_eq (.inr ?_)⟩
      linarith
    · have hprevious := h.add_gapBelow_le h' hlt
      rw [abs_sub_le_abs_sub_iff hlt, abs_sub_le_abs_sub_iff' hlt]
      refine ⟨by linarith, fun hfar => hx.even_of_eq (.inl ?_)⟩
      linarith
  refine ⟨h, fun {m' q'} h' => ?_, fun h' hne htie => (hother h' hne).2 htie.ge⟩
  by_cases hne : (m', q') = (m, q)
  · cases hne
    exact le_rfl
  · exact (hother h' hne).1

lemma IsNearest.roundsTo (h : IsNearest x m q) (hm : 0 < m) : RoundsTo m q x := by
  obtain ⟨mn, qn, hcn, hn⟩ := h.canonical.exists_next
  obtain ⟨mp, qp, hcp, hp⟩ := h.canonical.exists_previous hm
  have hpos : (0 : ℚ) < 2 ^ q := by positivity
  have hgap := gapBelow_pos m q
  have hnext : binaryValue m q < binaryValue mn qn := by linarith
  have hprevious : binaryValue mp qp < binaryValue m q := by linarith
  have hhigh := (abs_sub_le_abs_sub_iff hnext).1 (h.le hcn)
  have hlow := (abs_sub_le_abs_sub_iff' hprevious).1 (h.le hcp)
  unfold RoundsTo
  split
  · constructor <;> linarith
  · next hodd =>
    constructor
    · refine lt_of_le_of_ne (by linarith) fun heq => hodd (h.even hcp ?_ ?_)
      · rintro ⟨⟩
        exact hprevious.ne rfl
      · refine le_antisymm (h.le hcp) ((abs_sub_le_abs_sub_iff hprevious).2 ?_)
        linarith
    · refine lt_of_le_of_ne (by linarith) fun heq => hodd (h.even hcn ?_ ?_)
      · rintro ⟨⟩
        exact hnext.ne rfl
      · refine le_antisymm (h.le hcn) ((abs_sub_le_abs_sub_iff' hnext).2 ?_)
        linarith

/-- No number rounds to two. -/
lemma IsNearest.unique (h : IsNearest x m q) (h' : IsNearest x m' q') : m = m' ∧ q = q' := by
  -- two numbers as near as each other are neighbours, so that one significand is odd
  have hnot {m m' : ℕ} {q q' : ℤ} (h : IsNearest x m q) (h' : IsNearest x m' q') :
      ¬ binaryValue m q < binaryValue m' q' := by
    intro hlt
    have htie : |x - binaryValue m q| = |x - binaryValue m' q'| :=
      le_antisymm (h.le h'.canonical) (h'.le h.canonical)
    have hne : (m', q') ≠ (m, q) := by
      rintro ⟨⟩
      exact hlt.ne rfl
    have heven := h.even h'.canonical hne htie
    have heven' := h'.even h.canonical hne.symm htie.symm
    have hhalf := (abs_sub_le_abs_sub_iff' hlt).1 htie.ge
    have hnext : IsCanonical (m + 1) q := by
      obtain ⟨hbits, hleast, hfull⟩ := h.canonical
      obtain ⟨k, rfl⟩ := heven
      exact ⟨by omega, hleast, hfull.imp_left (by omega)⟩
    have hpos : (0 : ℚ) < 2 ^ q := by positivity
    have hsucc := binaryValue_succ m q
    have hnear := (abs_sub_le_abs_sub_iff (by linarith)).1 (h.le hnext)
    have hgap := h.canonical.add_le h'.canonical hlt
    obtain ⟨rfl, rfl⟩ := hnext.eq_of_binaryValue_eq h'.canonical (by linarith)
    exact absurd heven' (Nat.not_even_iff_odd.2 heven.add_one)
  have heq := le_antisymm (not_lt.1 (hnot h' h)) (not_lt.1 (hnot h h'))
  exact h.canonical.eq_of_binaryValue_eq h'.canonical heq

end BurnRate.Decimal
