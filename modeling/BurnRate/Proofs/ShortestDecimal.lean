import BurnRate.Proofs.NumeralRange
import BurnRate.Proofs.RoundingInterval

/-!
The shortest decimal for a binary number rounds to it, and none with fewer digits does.

On a grid of decimals only the two neighbours of the number have to be tried. The grid of 17
significant digits is finer than the interval of what rounds to the number, and any decimal with
fewer digits that rounds to it would have been met on a coarser grid.
-/

namespace BurnRate.Decimal

variable {m c n : ℕ} {q k : ℤ}

lemma pow_length_toDigits_le (hn : 0 < n) : 10 ^ ((Nat.toDigits 10 n).length - 1) ≤ n := by
  by_cases hone : (Nat.toDigits 10 n).length - 1 = 0
  · rw [hone]
    exact hn
  · rw [← not_lt, ← Nat.length_toDigits_le_iff (by decide) (by omega)]
    omega

lemma lt_pow_length_toDigits (n : ℕ) : n < 10 ^ (Nat.toDigits 10 n).length :=
  (Nat.length_toDigits_le_iff (by decide) Nat.length_toDigits_pos).1 le_rfl

lemma findSome?_range {α : Type} {f : ℕ → Option α} {a : α}
    (h : (List.range n).findSome? f = some a) : ∃ i < n, f i = some a ∧ ∀ j < i, f j = none := by
  induction n with
  | zero => cases h
  | succ n ih =>
    rw [List.range_succ, List.findSome?_append, Option.or_eq_some_iff] at h
    rcases h with h | ⟨hnone, hlast⟩
    · obtain ⟨i, hi, hfound, hbefore⟩ := ih h
      exact ⟨i, by omega, hfound, hbefore⟩
    · refine ⟨n, by omega, by simpa using hlast, fun j hj => ?_⟩
      exact List.findSome?_eq_none_iff.1 hnone j (List.mem_range.2 hj)

/-! ### Decimals on a grid -/

namespace Interval

lemma value_of (m : ℕ) (q : ℤ) :
    ((of m q).value : ℚ) = binaryValue m q * (of m q).denominator := by
  have hpower := power_fst 2 (by decide) (q - 2)
  have hvalue : (of m q).value = 4 * m * (power 2 (q - 2)).1 := rfl
  have hdenominator : (of m q).denominator = (power 2 (q - 2)).2 := rfl
  rw [hvalue, hdenominator, binaryValue]
  push_cast at hpower ⊢
  rw [hpower, zpow_sub₀ (by norm_num)]
  ring

/-- The lower end of the rounding interval of `m · 2^q`. -/
lemma low_of (hm : 0 < m) (q : ℤ) :
    ((of m q).low : ℚ) = (binaryValue m q - gapBelow m q / 2) * (of m q).denominator := by
  have hpower := power_fst 2 (by decide) (q - 2)
  have hlow : (of m q).low =
      (4 * m - if Binary.isBoundary m q then 1 else 2) * (power 2 (q - 2)).1 := rfl
  have hdenominator : (of m q).denominator = (power 2 (q - 2)).2 := rfl
  rw [hlow, hdenominator, binaryValue, gapBelow, Nat.cast_mul,
    Nat.cast_sub (by split <;> omega), hpower]
  have hhalf : (2 : ℚ) ^ (q - 1) = 2 ^ q / 2 := by rw [zpow_sub_one₀ (by norm_num)]; ring
  split <;> push_cast <;> rw [zpow_sub₀ (by norm_num)]
  · rw [hhalf]
    ring
  · ring

section

variable {i : Interval} {e : ℕ} {x : ℚ}

/-- A decimal is compared with an end of an interval over a common denominator. -/
lemma end_le_iff (hi : 0 < i.denominator) (he : (e : ℚ) = x * i.denominator) (c : ℕ) (k : ℤ) :
    e * (power 10 k).2 ≤ c * (power 10 k).1 * i.denominator ↔ x ≤ c * 10 ^ k := by
  have hfst := power_fst 10 (by decide) k
  push_cast at hfst
  have hpos : (0 : ℚ) < i.denominator * (power 10 k).2 :=
    mul_pos (Nat.cast_pos.2 hi) (Nat.cast_pos.2 (power_snd_pos 10 (by decide) k))
  rw [← mul_le_mul_iff_left₀ hpos, ← Nat.cast_le (α := ℚ)]
  push_cast
  rw [he, hfst]
  ring_nf

lemma le_end_iff (hi : 0 < i.denominator) (he : (e : ℚ) = x * i.denominator) (c : ℕ) (k : ℤ) :
    c * (power 10 k).1 * i.denominator ≤ e * (power 10 k).2 ↔ c * 10 ^ k ≤ x := by
  have hfst := power_fst 10 (by decide) k
  push_cast at hfst
  have hpos : (0 : ℚ) < i.denominator * (power 10 k).2 :=
    mul_pos (Nat.cast_pos.2 hi) (Nat.cast_pos.2 (power_snd_pos 10 (by decide) k))
  rw [← mul_le_mul_iff_left₀ hpos, ← Nat.cast_le (α := ℚ)]
  push_cast
  rw [he, hfst]
  ring_nf

end

/-- The interval of a number contains what rounds to it. -/
lemma contains_of (hm : 0 < m) (q : ℤ) (c : ℕ) (k : ℤ) :
    (of m q).contains c k = true ↔ RoundsTo m q (c * 10 ^ k) := by
  have hpos := denominator_pos m q
  have hhigh : ((of m q).high : ℚ) = (binaryValue m q + 2 ^ q / 2) * (of m q).denominator := by
    rw [high_of, binaryValue]
    ring
  have hlow := low_of hm q
  have hclosed : (of m q).closed = (m % 2 == 0) := rfl
  unfold contains RoundsTo
  dsimp only
  rw [hclosed]
  by_cases heven : Even m
  · rw [if_pos (by simpa using Nat.even_iff.1 heven), if_pos heven, Bool.and_eq_true,
      decide_eq_true_eq, decide_eq_true_eq, end_le_iff hpos hlow, le_end_iff hpos hhigh]
  · rw [if_neg (by simpa [Nat.even_iff] using heven), if_neg heven, Bool.and_eq_true,
      decide_eq_true_eq, decide_eq_true_eq, ← not_le, ← not_le, le_end_iff hpos hlow,
      end_le_iff hpos hhigh, not_le, not_le]

/-- On a grid, the neighbours of the number are tried. -/
lemma hit?_spec (m : ℕ) (q k : ℤ) : ∃ c : ℕ,
    c * 10 ^ k ≤ binaryValue m q ∧ binaryValue m q < (c + 1 : ℕ) * 10 ^ k ∧
      (∀ c', (of m q).hit? k = some c' → c' = c ∨ c' = c + 1) ∧
      ((of m q).hit? k = none →
        (of m q).contains c k = false ∧ (of m q).contains (c + 1) k = false) := by
  have hpos := denominator_pos m q
  have hvalue := value_of m q
  have hfst : 0 < (power 10 k).1 := by
    have h := power_fst 10 (by decide) k
    have hsnd := power_snd_pos 10 (by decide) k
    rw [← Nat.cast_pos (α := ℚ), h]
    positivity
  have hdiv : 0 < (of m q).denominator * (power 10 k).1 := Nat.mul_pos hpos hfst
  refine ⟨(of m q).value * (power 10 k).2 / ((of m q).denominator * (power 10 k).1), ?_, ?_, ?_, ?_⟩
  · rw [← le_end_iff hpos hvalue, mul_assoc, mul_comm (power 10 k).1]
    exact Nat.div_mul_le_self _ _
  · rw [← not_le, ← le_end_iff hpos hvalue, not_le, mul_assoc, mul_comm (power 10 k).1]
    exact (Nat.div_lt_iff_lt_mul hdiv).1 (Nat.lt_succ_self _)
  · intro c' h
    unfold hit? at h
    dsimp only at h
    split at h
    · split at h <;> cases h
      · exact .inl rfl
      · exact .inr rfl
    · cases h
      exact .inl rfl
    · cases h
      exact .inr rfl
    · cases h
  · intro h
    unfold hit? at h
    dsimp only at h
    split at h
    · split at h <;> cases h
    · cases h
    · cases h
    · next hlow hhigh => exact ⟨hlow, hhigh⟩

/-- A grid with a number that rounds to the given one is not passed over. -/
lemma hit?_ne_none (hm : 0 < m) (h : RoundsTo m q (c * 10 ^ k)) : (of m q).hit? k ≠ none := by
  intro hnone
  obtain ⟨c₀, hbelow, habove, -, hfails⟩ := hit?_spec m q k
  obtain ⟨hlow, hhigh⟩ := hfails hnone
  have hpos : (0 : ℚ) < 10 ^ k := by positivity
  have hself := roundsTo_self m q
  rcases Nat.lt_or_ge c₀ c with hlt | hle
  · have hnext : ((c₀ + 1 : ℕ) : ℚ) * 10 ^ k ≤ c * 10 ^ k :=
      mul_le_mul_of_nonneg_right (Nat.cast_le.2 hlt) hpos.le
    rw [(contains_of hm q (c₀ + 1) k).2 (hself.between h habove.le hnext)] at hhigh
    cases hhigh
  · have hprevious : (c : ℚ) * 10 ^ k ≤ c₀ * 10 ^ k :=
      mul_le_mul_of_nonneg_right (Nat.cast_le.2 hle) hpos.le
    rw [(contains_of hm q c₀ k).2 (h.between hself hprevious hbelow)] at hlow
    cases hlow

/-- The magnitude tells the power of ten below a number and the one above. -/
lemma magnitude_spec (hm : 0 < m) (q : ℤ) : 10 ^ ((of m q).magnitude - 1) ≤ binaryValue m q ∧
    binaryValue m q < 10 ^ (of m q).magnitude := by
  have hden := denominator_pos m q
  have hdenq : (0 : ℚ) < (of m q).denominator := Nat.cast_pos.2 hden
  have hvalue := value_of m q
  have hpos : 0 < (of m q).value := by
    have h : (0 : ℚ) < binaryValue m q * (of m q).denominator := by
      unfold binaryValue
      positivity
    rwa [← hvalue, Nat.cast_pos] at h
  generalize of m q = i at *
  have hx : binaryValue m q = i.value / i.denominator := by
    rw [hvalue, mul_div_cancel_right₀ _ hdenq.ne']
  rw [hx, le_div_iff₀ hdenq, div_lt_iff₀ hdenq]
  unfold magnitude
  split
  · next hle =>
    -- at least one: the digits of the whole part count
    have hlow := pow_length_toDigits_le (Nat.div_pos hle hden)
    have hhigh := lt_pow_length_toDigits (i.value / i.denominator)
    have hlen := Nat.length_toDigits_pos (b := 10) (n := i.value / i.denominator)
    generalize (Nat.toDigits 10 (i.value / i.denominator)).length = l at *
    obtain ⟨l, rfl⟩ : ∃ j, l = j + 1 := ⟨l - 1, by omega⟩
    rw [Nat.le_div_iff_mul_le hden] at hlow
    rw [Nat.div_lt_iff_lt_mul hden] at hhigh
    rw [Nat.cast_succ, add_sub_cancel_right, zpow_natCast, ← Nat.cast_succ, zpow_natCast]
    exact ⟨by exact_mod_cast hlow, by exact_mod_cast hhigh⟩
  · next hlt =>
    -- below one: the zeros behind the point count
    have hlow := pow_length_toDigits_le (n := (i.denominator - 1) / i.value)
      (Nat.div_pos (by omega) hpos)
    have hhigh := lt_pow_length_toDigits ((i.denominator - 1) / i.value)
    have hlen := Nat.length_toDigits_pos (b := 10) (n := (i.denominator - 1) / i.value)
    generalize (Nat.toDigits 10 ((i.denominator - 1) / i.value)).length = l at *
    obtain ⟨l, rfl⟩ : ∃ j, l = j + 1 := ⟨l - 1, by omega⟩
    rw [Nat.le_div_iff_mul_le hpos] at hlow
    rw [Nat.div_lt_iff_lt_mul hpos] at hhigh
    have hexponent : (1 : ℤ) - (l + 1 : ℕ) - 1 = -((l + 1 : ℕ) : ℤ) := by ring
    have hexponent' : (1 : ℤ) - (l + 1 : ℕ) = -(l : ℤ) := by push_cast; ring
    rw [hexponent, hexponent', zpow_neg, zpow_natCast, zpow_neg, zpow_natCast,
      inv_mul_le_iff₀ (by positivity), lt_inv_mul_iff₀ (by positivity)]
    rw [Nat.add_sub_cancel] at hlow
    have hlow' : 10 ^ l * i.value < i.denominator := by omega
    have hhigh' : i.denominator ≤ 10 ^ (l + 1) * i.value := by omega
    exact ⟨by exact_mod_cast hhigh', by exact_mod_cast hlow'⟩

/-- On the grid of 17 significant digits there is a number that rounds to the given one. -/
lemma exists_roundsTo_finest (h : IsCanonical m q) (hk : 10 ^ (k + 16) ≤ binaryValue m q) :
    ∃ c : ℕ, RoundsTo m q (c * 10 ^ k) := by
  obtain ⟨c, hbelow, habove, -, -⟩ := hit?_spec m q k
  have hp : (0 : ℚ) < 2 ^ q := by positivity
  have hgap := gapBelow_pos m q
  -- the grid is finer than both halves of the interval together
  have hfine : (10 : ℚ) ^ k < gapBelow m q / 2 + 2 ^ q / 2 := by
    have hscaled : (10 : ℚ) ^ k * 10 ^ 16 ≤ m * 2 ^ q := by
      rw [zpow_add₀ (by norm_num)] at hk
      exact_mod_cast hk
    unfold gapBelow
    split
    · next hboundary =>
      simp only [Binary.isBoundary, Bool.and_eq_true, beq_iff_eq] at hboundary
      rw [hboundary.1] at hscaled
      have htwo := two_zpow_eq q
      push_cast at hscaled
      linarith
    · have hm : (m : ℚ) < 2 ^ 53 := by exact_mod_cast h.bits
      have hlt : (m : ℚ) * 2 ^ q < 2 ^ 53 * 2 ^ q := mul_lt_mul_of_pos_right hm hp
      linarith
  by_cases hnear : binaryValue m q - gapBelow m q / 2 < c * 10 ^ k
  · exact ⟨c, roundsTo_of_lt hnear (by linarith)⟩
  · refine ⟨c + 1, roundsTo_of_lt (by linarith) ?_⟩
    push_cast
    linarith

end Interval

/-! ### Scaled decimals without superfluous zeros -/

lemma Scaled.digits_normal (hc : 0 < c) (k : ℤ) : 0 < (normal c k).digits ∧
    (normal c k).digits ≤ c ∧ (normal c k).digits % 10 ≠ 0 := by
  fun_induction normal c k with
  | case1 digits exponent h ih =>
    obtain ⟨hpos, hle, hlast⟩ := ih (by omega)
    exact ⟨hpos, by omega, hlast⟩
  | case2 digits exponent h => exact ⟨hc, le_rfl, fun hlast => h ⟨hc, hlast⟩⟩

/-! ### The first grid with a hit -/

/-- The exponent of the grid of numbers with one significant digit more than given. -/
def gridExponent (m : ℕ) (q : ℤ) (extra : ℕ) : ℤ := (Interval.of m q).magnitude - (extra + 1)

/-- The shortest decimal is the first hit: it rounds to the number, and no grid with fewer digits
holds a number that does. -/
lemma exists_shortest (h : IsCanonical m q) (hm : 0 < m) : ∃ extra c : ℕ,
    shortest m q = Scaled.normal c (gridExponent m q extra) ∧
      RoundsTo m q (c * 10 ^ gridExponent m q extra) ∧ c ≤ 10 ^ (extra + 1) ∧
        ∀ fewer < extra, ∀ d : ℕ, ¬ RoundsTo m q (d * 10 ^ gridExponent m q fewer) := by
  let i := Interval.of m q
  obtain ⟨hlow, hhigh⟩ := Interval.magnitude_spec hm q
  have hgrids : (((List.range 17).map fun n : ℕ => i.magnitude - (n + 1)).findSome? fun k =>
      (i.hit? k).map (·, k)) = (List.range 17).findSome? fun n : ℕ =>
        (i.hit? (gridExponent m q n)).map (·, gridExponent m q n) := by
    rw [List.findSome?_map]
    rfl
  unfold shortest
  dsimp only
  rw [hgrids]
  cases hfound : (List.range 17).findSome? fun n : ℕ =>
      (i.hit? (gridExponent m q n)).map (·, gridExponent m q n) with
  | none =>
    -- the finest grid has a hit
    have hlast := List.findSome?_eq_none_iff.1 hfound 16 (by simp)
    rw [Option.map_eq_none_iff] at hlast
    have hk : (10 : ℚ) ^ (gridExponent m q 16 + 16) ≤ binaryValue m q := by
      have hexponent : gridExponent m q 16 + 16 = i.magnitude - 1 := by
        rw [gridExponent]
        push_cast
        ring
      rw [hexponent]
      exact hlow
    obtain ⟨c, hc⟩ := Interval.exists_roundsTo_finest h hk
    exact absurd hlast (Interval.hit?_ne_none hm hc)
  | some found =>
    obtain ⟨extra, -, hhit, hbefore⟩ := findSome?_range hfound
    obtain ⟨c, hc, rfl⟩ := Option.map_eq_some_iff.1 hhit
    have hrounds := (Interval.contains_of hm q c _).1 (Interval.contains_of_hit? hc)
    refine ⟨extra, c, rfl, hrounds, ?_, fun fewer hfewer d hd => ?_⟩
    · obtain ⟨c₀, hbelow, -, hcases, -⟩ := Interval.hit?_spec m q (gridExponent m q extra)
      have hpos : (0 : ℚ) < 10 ^ gridExponent m q extra := by positivity
      have hmagnitude : i.magnitude = ((extra + 1 : ℕ) : ℤ) + gridExponent m q extra := by
        rw [gridExponent]
        push_cast
        ring
      have hlt : (c₀ : ℚ) < 10 ^ (extra + 1) := by
        have hbound := hbelow.trans_lt hhigh
        rw [hmagnitude, zpow_add₀ (by norm_num), zpow_natCast] at hbound
        exact lt_of_mul_lt_mul_right hbound hpos.le
      have hlt : c₀ < 10 ^ (extra + 1) := by exact_mod_cast hlt
      rcases hcases c hc with rfl | rfl <;> omega
    · have hnone := hbefore fewer hfewer
      rw [Option.map_eq_none_iff] at hnone
      exact Interval.hit?_ne_none hm hd hnone

/-- A decimal that rounds to a number is not passed over on the grid of as many digits. -/
lemma exists_on_grid (hm : 0 < m) (hc : RoundsTo m q (c * 10 ^ k)) {digits : ℕ}
    (hdigits : c < 10 ^ (digits + 1)) :
    ∃ d : ℕ, RoundsTo m q (d * 10 ^ gridExponent m q digits) := by
  obtain ⟨hlow, -⟩ := Interval.magnitude_spec hm q
  have hpower : (10 : ℚ) ^ ((Interval.of m q).magnitude - 1) =
      (10 ^ digits : ℕ) * 10 ^ gridExponent m q digits := by
    push_cast
    rw [← zpow_natCast, ← zpow_add₀ (by norm_num), gridExponent]
    congr 1
    ring
  rcases le_or_gt ((10 : ℚ) ^ ((Interval.of m q).magnitude - 1)) (c * 10 ^ k) with hle | hlt
  · -- the decimal itself is on the grid
    have hexponent : gridExponent m q digits ≤ k := by
      by_contra hfine
      have hk : k ≤ gridExponent m q digits - 1 := by omega
      have hsmall : (c : ℚ) * 10 ^ k < 10 ^ ((Interval.of m q).magnitude - 1) := by
        calc (c : ℚ) * 10 ^ k < (10 ^ (digits + 1) : ℕ) * 10 ^ k :=
              mul_lt_mul_of_pos_right (Nat.cast_lt.2 hdigits) (by positivity)
          _ ≤ (10 ^ (digits + 1) : ℕ) * 10 ^ (gridExponent m q digits - 1) :=
              mul_le_mul_of_nonneg_left (zpow_le_zpow_right₀ (by norm_num) hk) (by positivity)
          _ = 10 ^ ((Interval.of m q).magnitude - 1) := by
              rw [hpower, zpow_sub_one₀ (by norm_num), pow_succ]
              push_cast
              ring
      exact hsmall.not_ge hle
    obtain ⟨n, rfl⟩ : ∃ n : ℕ, k = gridExponent m q digits + n :=
      ⟨(k - gridExponent m q digits).toNat, by omega⟩
    refine ⟨c * 10 ^ n, ?_⟩
    rw [zpow_add₀ (by norm_num), zpow_natCast] at hc
    convert hc using 1
    push_cast
    ring
  · -- the power of ten below the number is between the two
    refine ⟨10 ^ digits, ?_⟩
    rw [← hpower]
    exact hc.between (roundsTo_self m q) hlt.le hlow

/-- **The shortest decimal** of a number rounds to it, and no decimal that does has fewer digits. -/
theorem shortest_spec (h : IsCanonical m q) (hm : 0 < m) :
    RoundsTo m q (shortest m q).value ∧ (shortest m q).digits % 10 ≠ 0 ∧
      ∀ (c : ℕ) (k : ℤ), RoundsTo m q (c * 10 ^ k) →
        (Nat.toDigits 10 (shortest m q).digits).length ≤ (Nat.toDigits 10 c).length := by
  obtain ⟨extra, c₀, hshortest, hrounds, hle, hfewer⟩ := exists_shortest h hm
  have hpos : 0 < c₀ := by
    refine Nat.pos_of_ne_zero ?_
    rintro rfl
    have hlow := hrounds.le.1
    have hgap := gapBelow_le m q
    have hp : (0 : ℚ) < 2 ^ q := by positivity
    have hm1 : (1 : ℚ) ≤ m := by exact_mod_cast hm
    have hvalue : 1 * (2 : ℚ) ^ q ≤ m * 2 ^ q := mul_le_mul_of_nonneg_right hm1 hp.le
    rw [Nat.cast_zero, zero_mul, binaryValue] at hlow
    linarith
  obtain ⟨-, hdigits, hlast⟩ := Scaled.digits_normal hpos (gridExponent m q extra)
  rw [hshortest]
  refine ⟨by rwa [Scaled.value_normal], hlast, fun c k hc => ?_⟩
  have hextra : extra < (Nat.toDigits 10 c).length := by
    by_contra hmany
    have hlength := Nat.length_toDigits_pos (b := 10) (n := c)
    have hlt : c < 10 ^ ((Nat.toDigits 10 c).length - 1 + 1) := by
      rw [Nat.sub_add_cancel hlength]
      exact lt_pow_length_toDigits c
    obtain ⟨d, hd⟩ := exists_on_grid hm hc hlt
    exact hfewer _ (by omega) d hd
  refine le_trans ((Nat.length_toDigits_le_iff (by decide) (by omega)).2 ?_) hextra
  refine lt_of_le_of_ne (hdigits.trans hle) fun heq => hlast ?_
  rw [heq, pow_succ, Nat.mul_mod_left]

end BurnRate.Decimal
