import BurnRate.Decimal.Numeral
import Mathlib.Algebra.Order.Field.Power
import Mathlib.Data.Rat.Cast.Order
import Mathlib.Tactic.FieldSimp
import Mathlib.Tactic.Linarith
import Mathlib.Tactic.Positivity
import Mathlib.Tactic.Ring

/-!
The numerals of fractions.

The shortest decimal for a number lies in the rounding interval of the number. For a number below
one, that interval ends below one as well, so its numeral denotes a number below one.
-/

namespace BurnRate.Decimal

/-! ### Plain numerals -/

/-- What a plain decimal numeral denotes: digits, then others behind a point if there are any. -/
inductive Denotes : List Char → ℚ → Prop where
  | whole {ds : List Char} (hne : ds ≠ []) (hdigits : ∀ c ∈ ds, c.isDigit = true) :
      Denotes ds (digitsValue ds)
  | point {ds fs : List Char} (hds : ds ≠ []) (hfs : fs ≠ [])
      (hdigits : ∀ c ∈ ds ++ fs, c.isDigit = true) :
      Denotes (ds ++ '.' :: fs) (digitsValue ds + digitsValue fs / 10 ^ fs.length)

/-- The text is a plain numeral of a number that is at least zero and below one. Zero may have a
sign. -/
def IsFractionNumeral (text : String) : Prop :=
  text = "-0" ∨ ∃ x, Denotes text.toList x ∧ 0 ≤ x ∧ x < 1

lemma digitsValue_append (ds fs : List Char) :
    digitsValue (ds ++ fs) = digitsValue ds * 10 ^ fs.length + digitsValue fs := by
  induction fs using List.reverseRecOn with
  | nil => simp [digitsValue]
  | append_singleton fs c ih =>
    have hlast (es : List Char) :
        digitsValue (es ++ [c]) = 10 * digitsValue es + (c.toNat - 48) := by
      simp [digitsValue, List.foldl_append]
    rw [← List.append_assoc, hlast, hlast, ih, List.length_append, List.length_singleton]
    ring

lemma digitsValue_toDigits (n : ℕ) : digitsValue (Nat.toDigits 10 n) = n :=
  Nat.ofDigitChars_ten_toDigits

lemma digitsValue_zeros (n : ℕ) : digitsValue (List.replicate n '0') = 0 := by
  induction n with
  | zero => rfl
  | succ n ih =>
    rw [List.replicate_succ', digitsValue_append, ih]
    rfl

lemma isDigit_toDigits (n : ℕ) : ∀ c ∈ Nat.toDigits 10 n, c.isDigit = true :=
  fun _ hc => Nat.isDigit_of_mem_toDigits (by decide) (by decide) hc

lemma isDigit_zeros (n : ℕ) : ∀ c ∈ List.replicate n '0', c.isDigit = true := by
  intro c hc
  rw [List.eq_of_mem_replicate hc]
  decide

lemma denotes_zero : Denotes ['0'] 0 := by
  have hzero : Denotes ['0'] (digitsValue ['0']) :=
    .whole (by decide) (List.forall_mem_singleton.2 rfl)
  have hvalue : digitsValue ['0'] = 0 := rfl
  rwa [hvalue, Nat.cast_zero] at hzero

/-- Digits with a point among them, that many places from the end. -/
lemma denotes_point {ds : List Char} {places : ℕ} (hdigits : ∀ c ∈ ds, c.isDigit = true)
    (hpos : 0 < places) (hlt : places < ds.length) :
    Denotes (ds.take (ds.length - places) ++ '.' :: ds.drop (ds.length - places))
      (digitsValue ds / 10 ^ places) := by
  have hlength : (ds.drop (ds.length - places)).length = places := by
    rw [List.length_drop]
    omega
  have hvalue : (digitsValue ds : ℚ) / 10 ^ places = digitsValue (ds.take (ds.length - places)) +
      digitsValue (ds.drop (ds.length - places)) / 10 ^ (ds.drop (ds.length - places)).length := by
    conv_lhs => rw [← List.take_append_drop (ds.length - places) ds, digitsValue_append, hlength]
    rw [hlength]
    push_cast
    field_simp
  rw [hvalue]
  refine .point ?_ ?_ (by rwa [List.take_append_drop])
  · exact List.ne_nil_of_length_pos (by rw [List.length_take]; omega)
  · exact List.ne_nil_of_length_pos (by omega)

/-! ### Scaled decimals -/

namespace Scaled

/-- The number that the digits and the exponent stand for. -/
def value (s : Scaled) : ℚ := s.digits * 10 ^ s.exponent

lemma value_nonneg (s : Scaled) : 0 ≤ s.value := by
  unfold value
  positivity

lemma value_normal (digits : ℕ) (exponent : ℤ) :
    (normal digits exponent).value = digits * 10 ^ exponent := by
  fun_induction normal digits exponent with
  | case1 digits exponent h ih =>
    obtain ⟨n, hn⟩ : 10 ∣ digits := Nat.dvd_of_mod_eq_zero h.2
    have hdiv : digits / 10 = n := by omega
    rw [ih, hdiv, hn, zpow_add₀ (by norm_num)]
    push_cast
    ring
  | case2 digits exponent h => rfl

/-- A scaled decimal is printed as a plain numeral of its value. -/
lemma denotes_numeral (s : Scaled) : Denotes s.numeral s.value := by
  obtain ⟨digits, exponent⟩ := s
  rw [numeral, value]
  dsimp only
  split
  · next hexponent =>
    obtain ⟨n, rfl⟩ := Int.eq_ofNat_of_zero_le hexponent
    have hvalue : (digits : ℚ) * 10 ^ (n : ℤ) =
        digitsValue (Nat.toDigits 10 digits ++ List.replicate n '0') := by
      rw [digitsValue_append, digitsValue_toDigits, digitsValue_zeros, List.length_replicate,
        zpow_natCast]
      push_cast
      ring
    rw [Int.toNat_natCast, hvalue]
    refine .whole (by simp [Nat.toDigits_ne_nil]) ?_
    exact List.forall_mem_append.2 ⟨isDigit_toDigits digits, isDigit_zeros n⟩
  · next hexponent =>
    obtain ⟨n, rfl⟩ : ∃ n : ℕ, exponent = -(n : ℤ) := ⟨(-exponent).toNat, by omega⟩
    rw [neg_neg, Int.toNat_natCast]
    have hvalue : (digits : ℚ) * 10 ^ (-(n : ℤ)) = digitsValue (List.replicate
        (n + 1 - (Nat.toDigits 10 digits).length) '0' ++ Nat.toDigits 10 digits) / 10 ^ n := by
      rw [digitsValue_append, digitsValue_zeros, digitsValue_toDigits, Nat.zero_mul, Nat.zero_add,
        zpow_neg, zpow_natCast, div_eq_mul_inv]
    rw [hvalue]
    refine denotes_point ?_ (by omega) ?_
    · exact List.forall_mem_append.2 ⟨isDigit_zeros _, isDigit_toDigits digits⟩
    · rw [List.length_append, List.length_replicate]
      omega

end Scaled

/-! ### The shortest decimal of a number -/

lemma power_snd_pos (b : ℕ) (hb : 0 < b) (k : ℤ) : 0 < (power b k).2 := by
  unfold power
  split
  · exact Nat.one_pos
  · exact Nat.pow_pos hb

/-- The two numbers of `power` are a power as a fraction. -/
lemma power_fst (b : ℕ) (hb : 0 < b) (k : ℤ) :
    ((power b k).1 : ℚ) = (b : ℚ) ^ k * (power b k).2 := by
  have hne : (b : ℚ) ≠ 0 := by positivity
  unfold power
  split
  · next hk =>
    obtain ⟨n, rfl⟩ := Int.eq_ofNat_of_zero_le hk
    simp
  · next hk =>
    obtain ⟨n, rfl⟩ : ∃ n : ℕ, k = -(n : ℤ) := ⟨(-k).toNat, by omega⟩
    simp [hne]

namespace Interval

variable {i : Interval} {c m : ℕ} {k q : ℤ}

/-- What an interval contains is not above its upper end. -/
lemma le_high_of_contains (h : i.contains c k = true) :
    (c : ℚ) * 10 ^ k * i.denominator ≤ i.high := by
  have hd : 0 < (power 10 k).2 := power_snd_pos 10 (by decide) k
  have hle : c * (power 10 k).1 * i.denominator ≤ i.high * (power 10 k).2 := by
    unfold contains at h
    dsimp only at h
    split at h <;> simp only [Bool.and_eq_true, decide_eq_true_eq] at h
    · exact h.2
    · exact h.2.le
  have hcast : (c : ℚ) * (10 ^ k * (power 10 k).2) * i.denominator ≤
      i.high * (power 10 k).2 := by
    have hfst := power_fst 10 (by decide) k
    push_cast at hfst
    rw [← hfst]
    exact_mod_cast hle
  refine le_of_mul_le_mul_right ?_ (Nat.cast_pos.2 hd : (0 : ℚ) < (power 10 k).2)
  calc (c : ℚ) * 10 ^ k * i.denominator * (power 10 k).2
      = c * (10 ^ k * (power 10 k).2) * i.denominator := by ring
    _ ≤ i.high * (power 10 k).2 := hcast

lemma contains_of_hit? (h : i.hit? k = some c) : i.contains c k = true := by
  unfold hit? at h
  dsimp only at h
  split at h
  · next hlow hhigh =>
    split at h <;> cases h
    · exact hlow
    · exact hhigh
  · next hlow _ =>
    cases h
    exact hlow
  · next _ hhigh =>
    cases h
    exact hhigh
  · cases h

lemma denominator_pos (m : ℕ) (q : ℤ) : 0 < (of m q).denominator :=
  power_snd_pos 2 (by decide) (q - 2)

/-- The upper end of the rounding interval of `m · 2^q`. -/
lemma high_of (m : ℕ) (q : ℤ) :
    ((of m q).high : ℚ) = (m + 1 / 2) * 2 ^ q * (of m q).denominator := by
  have hpower := power_fst 2 (by decide) (q - 2)
  have hhigh : (of m q).high = (4 * m + 2) * (power 2 (q - 2)).1 := rfl
  have hdenominator : (of m q).denominator = (power 2 (q - 2)).2 := rfl
  rw [hhigh, hdenominator]
  push_cast at hpower ⊢
  rw [hpower, zpow_sub₀ (by norm_num)]
  ring

end Interval

/-- The shortest decimal is not above the rounding interval. -/
lemma value_shortest_le (m : ℕ) (q : ℤ) : (shortest m q).value ≤ (m + 1 / 2) * 2 ^ q := by
  unfold shortest
  dsimp only
  split
  · next c k hfound =>
    obtain ⟨k', -, hhit⟩ := List.exists_of_findSome?_eq_some hfound
    obtain ⟨c', hc, heq⟩ := Option.map_eq_some_iff.1 hhit
    cases heq
    have hle := Interval.le_high_of_contains (Interval.contains_of_hit? hc)
    rw [Interval.high_of] at hle
    rw [Scaled.value_normal]
    exact le_of_mul_le_mul_right hle (Nat.cast_pos.2 (Interval.denominator_pos m q))
  · rw [Scaled.value, Nat.cast_zero, zero_mul]
    positivity

/-- The shortest decimal of a number below one is below one. -/
lemma value_shortest_lt_one {m : ℕ} {q : ℤ} (hq : q < 0) (hm : m < 2 ^ (-q).toNat) :
    (shortest m q).value < 1 := by
  obtain ⟨n, rfl⟩ : ∃ n : ℕ, q = -(n : ℤ) := ⟨(-q).toNat, by omega⟩
  rw [neg_neg, Int.toNat_natCast] at hm
  have hbelow : (m : ℚ) + 1 ≤ 2 ^ n := by exact_mod_cast hm
  have hpos : (0 : ℚ) < (2 ^ n)⁻¹ := by positivity
  calc (shortest m (-n)).value ≤ (m + 1 / 2) * 2 ^ (-(n : ℤ)) := value_shortest_le m (-n)
    _ = (m + 1 / 2) * (2 ^ n)⁻¹ := by rw [zpow_neg, zpow_natCast]
    _ < 2 ^ n * (2 ^ n)⁻¹ := mul_lt_mul_of_pos_right (by linarith) hpos
    _ = 1 := mul_inv_cancel₀ (by positivity)

/-- **Fractions** are printed as plain numerals of numbers that are at least zero and below one. -/
theorem isFractionNumeral_numeral {x : Float} (h : (Binary.ofFloat x).isFraction = true) :
    IsFractionNumeral (numeral x) := by
  unfold numeral
  cases hx : Binary.ofFloat x with
  | nan => rw [hx] at h; cases h
  | infinite negative => rw [hx] at h; cases h
  | finite negative m q =>
    rw [hx] at h
    simp only [Binary.isFraction, Bool.and_eq_true, Bool.or_eq_true, Bool.not_eq_true',
      beq_iff_eq, decide_eq_true_eq] at h
    obtain ⟨hsign, hsize⟩ := h
    by_cases hm : m = 0
    · subst hm
      cases negative with
      | true => exact .inl rfl
      | false =>
        refine .inr ⟨0, ?_, le_refl 0, zero_lt_one⟩
        rw [String.toList_ofList]
        exact denotes_zero
    · have hnegative : negative = false := hsign.resolve_right hm
      obtain ⟨hq, hlt⟩ := hsize.resolve_left hm
      have htext : (Binary.finite negative m q).numeral = (shortest m q).numeral := by
        rw [Binary.numeral, hnegative, if_neg hm]
        rfl
      rw [htext]
      refine .inr ⟨(shortest m q).value, ?_, Scaled.value_nonneg _, value_shortest_lt_one hq hlt⟩
      rw [String.toList_ofList]
      exact (shortest m q).denotes_numeral

end BurnRate.Decimal
