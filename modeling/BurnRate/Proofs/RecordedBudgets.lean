import BurnRate.Proofs.JoinKey
import BurnRate.Proofs.ShortestDecimal
import Mathlib.Data.List.DropRight
import Mathlib.Tactic.IntervalCases

/-!
A budget is recorded exactly.

Its text is a plain numeral that reads back as the budget, the sign of zero included, and no decimal
with fewer significant digits would do. So the text tells the budget.
-/

namespace BurnRate.Decimal

open Float.Model (UnpackedFloat Format)

variable {x y : Float} {negative negative' : Bool} {m m' : ℕ} {q q' : ℤ} {a b : ℚ}

/-! ### Numbers of 64 bits -/

lemma toNat_unpackExponent (w : BitVec 64) :
    (@UnpackedFloat.unpackExponent Format.binary64 w).toNat =
      w.toNat / 0x10000000000000 % 0x800 := by
  rw [UnpackedFloat.unpackExponent, BitVec.toNat_cast, BitVec.extractLsb_toNat,
    Nat.shiftRight_eq_div_pow]
  rfl

/-- The finite numbers are those that denote `± m · 2^q`. -/
lemma isFinite_iff :
    x.isFinite = true ↔ ∃ negative m q, Binary.ofFloat x = .finite negative m q := by
  let exponent := @UnpackedFloat.unpackExponent Format.binary64 x.toModel.toBits.toBitVec
  let fraction := @UnpackedFloat.unpackMantissa Format.binary64 x.toModel.toBits.toBitVec
  have hexponent : exponent.toNat = x.toBits.toNat / 0x10000000000000 % 0x800 :=
    toNat_unpackExponent _
  unfold Float.isFinite Float.Model.isFinite Float.Model.unpack UnpackedFloat.unpack
  unfold Binary.ofFloat Binary.ofBits
  dsimp only
  by_cases h : x.toBits.toNat / 0x10000000000000 % 0x800 = 2047
  · have hones : exponent = -1#_ := by
      apply BitVec.eq_of_toNat_eq
      rw [hexponent, h]
      rfl
    rw [if_pos hones, if_pos h]
    refine iff_of_false ?_ ?_
    · split <;> exact Bool.false_ne_true
    · split
      · rintro ⟨_, _, _, heq⟩
        cases heq
      · rintro ⟨_, _, _, heq⟩
        cases heq
  · have hones : exponent ≠ -1#_ := by
      intro heq
      rw [heq] at hexponent
      exact h hexponent.symm
    rw [if_neg hones, if_neg h]
    refine iff_of_true ?_ ?_
    · by_cases hleast : exponent = 0#_
      · rw [if_pos hleast]
        by_cases hzero : fraction = 0#_
        · rw [dif_pos hzero]
          rfl
        · rw [dif_neg hzero]
          rfl
      · rw [if_neg hleast]
        rfl
    · split <;> exact ⟨_, _, _, rfl⟩

/-- The word that denotes `± m · 2^q`. -/
def wordOf (negative : Bool) (m : ℕ) (q : ℤ) : ℕ :=
  (if negative then 0x8000000000000000 else 0) +
    if m < 0x10000000000000 then m
    else (q + 1075).toNat * 0x10000000000000 + (m - 0x10000000000000)

/-- What a word denotes is canonical, and tells the word. -/
lemma of_ofFloat (h : Binary.ofFloat x = .finite negative m q) :
    IsCanonical m q ∧ x.toBits.toNat = wordOf negative m q := by
  unfold Binary.ofFloat Binary.ofBits at h
  dsimp only at h
  have hlt := x.toBits.toNat_lt
  generalize x.toBits.toNat = n at *
  have hfraction : n % 0x10000000000000 < 0x10000000000000 := Nat.mod_lt n (by decide)
  have hsign : n = (if n / 0x8000000000000000 == 1 then 0x8000000000000000 else 0) +
      (n / 0x10000000000000 % 0x800 * 0x10000000000000 + n % 0x10000000000000) := by
    split
    · next hone =>
      rw [beq_iff_eq] at hone
      omega
    · next hone =>
      rw [beq_iff_eq] at hone
      omega
  split at h
  · split at h <;> cases h
  · split at h
    · next hzero =>
      cases h
      rw [hzero, Nat.zero_mul, Nat.zero_add] at hsign
      refine ⟨⟨by omega, le_rfl, .inr rfl⟩, ?_⟩
      rw [wordOf, if_pos hfraction]
      exact hsign
    · next hmany hzero =>
      cases h
      refine ⟨⟨by omega, by omega, .inl (by omega)⟩, ?_⟩
      rw [wordOf, if_neg (Nat.not_lt.2 (Nat.le_add_right _ _)), Nat.add_sub_cancel_left,
        sub_add_cancel, Int.toNat_natCast]
      exact hsign

lemma eq_of_ofFloat_eq (hx : Binary.ofFloat x = .finite negative m q)
    (hy : Binary.ofFloat y = .finite negative m q) : x = y := by
  have hbits : x.toBits = y.toBits := by
    apply UInt64.toNat_inj.1
    rw [(of_ofFloat hx).2, (of_ofFloat hy).2]
  obtain ⟨⟨v, hv⟩⟩ := x
  obtain ⟨⟨w, hw⟩⟩ := y
  cases (hbits : v = w)
  rfl

/-! ### Reading numerals -/

/-- A plain numeral behind an optional minus sign. -/
def DenotesSigned (text : List Char) (negative : Bool) (magnitude : ℚ) : Prop :=
  ∃ ds, text = (if negative then ['-'] else []) ++ ds ∧ Denotes ds magnitude

/-- The number that is nearest to a decimal, given by its sign and magnitude. Zero keeps the sign. -/
def NearestIs (negative : Bool) (magnitude : ℚ) (x : Float) : Prop :=
  ∃ m q, Binary.ofFloat x = .finite negative m q ∧ IsNearest magnitude m q

def ReadsAs (text : String) (x : Float) : Prop :=
  ∃ negative magnitude, DenotesSigned text.toList negative magnitude ∧ NearestIs negative magnitude x

lemma takeWhile_isDigit_point {ds fs : List Char} (h : ∀ c ∈ ds, c.isDigit = true) :
    (ds ++ '.' :: fs).takeWhile Char.isDigit = ds := by
  have hpoint : ('.' : Char).isDigit = false := rfl
  rw [List.takeWhile_append_of_pos h, List.takeWhile_cons, hpoint]
  exact List.append_nil ds

lemma Denotes.unique {cs : List Char} (ha : Denotes cs a) (hb : Denotes cs b) : a = b := by
  have hpoint : ('.' : Char).isDigit ≠ true := by decide
  cases ha with
  | whole hne hdigits =>
    generalize hds : cs = ds at hb hdigits
    cases hb with
    | whole => rfl
    | point => exact absurd (hdigits '.' (by simp)) hpoint
  | @point ds fs hds hfs hdigits =>
    generalize hes : ds ++ '.' :: fs = es at hb
    cases hb with
    | whole _ hothers => exact absurd (hothers '.' (by simp [← hes])) hpoint
    | @point ds' fs' _ _ hdigits' =>
      have hsplit := congrArg (List.takeWhile Char.isDigit) hes
      rw [takeWhile_isDigit_point (List.forall_mem_append.1 hdigits).1,
        takeWhile_isDigit_point (List.forall_mem_append.1 hdigits').1] at hsplit
      subst hsplit
      obtain ⟨-, rfl⟩ := List.cons.inj (List.append_cancel_left hes)
      rfl

lemma Denotes.ne_nil {cs : List Char} (h : Denotes cs a) : cs ≠ [] := by
  cases h with
  | whole hne hdigits => exact hne
  | point hds hfs hdigits => simp

lemma Denotes.head?_ne {cs : List Char} (h : Denotes cs a) : cs.head? ≠ some '-' := by
  have hminus : ('-' : Char).isDigit ≠ true := by decide
  intro hhead
  cases h with
  | whole hne hdigits => exact hminus (hdigits '-' (List.mem_of_head? hhead))
  | @point ds fs hds hfs hdigits =>
    rw [List.head?_append_of_ne_nil _ hds] at hhead
    exact hminus (hdigits '-' (List.mem_append_left _ (List.mem_of_head? hhead)))

lemma DenotesSigned.unique {cs : List Char} (ha : DenotesSigned cs negative a)
    (hb : DenotesSigned cs negative' b) : negative = negative' ∧ a = b := by
  obtain ⟨ds, rfl, hds⟩ := ha
  obtain ⟨es, heq, hes⟩ := hb
  cases negative <;> cases negative'
  · cases heq
    exact ⟨rfl, hds.unique hes⟩
  · refine absurd ?_ hds.head?_ne
    rw [show ds = '-' :: es from heq]
    rfl
  · refine absurd ?_ hes.head?_ne
    rw [show es = '-' :: ds from heq.symm]
    rfl
  · obtain rfl := List.append_cancel_left heq
    exact ⟨rfl, hds.unique hes⟩

/-- A text reads as one number at most. -/
lemma ReadsAs.unique {text : String} (hx : ReadsAs text x) (hy : ReadsAs text y) : x = y := by
  obtain ⟨n, a, hdenotes, m, q, hfloat, hnearest⟩ := hx
  obtain ⟨n', a', hdenotes', m', q', hfloat', hnearest'⟩ := hy
  obtain ⟨rfl, rfl⟩ := hdenotes.unique hdenotes'
  obtain ⟨rfl, rfl⟩ := hnearest.unique hnearest'
  exact eq_of_ofFloat_eq hfloat hfloat'

/-! ### Significant digits -/

/-- The digits of a numeral without the zeros at both ends. -/
def significantDigits (text : List Char) : List Char :=
  ((text.filter Char.isDigit).dropWhile (· == '0')).rdropWhile (· == '0')

lemma digitChar_ne {n : ℕ} (hpos : 0 < n) (hlt : n < 10) : n.digitChar ≠ '0' := by
  interval_cases n <;> decide

lemma head?_toDigits {n : ℕ} (h : 0 < n) : (Nat.toDigits 10 n).head? ≠ some '0' := by
  induction n using Nat.strongRecOn with
  | ind n ih =>
    rw [Nat.toDigits_eq_if (by decide)]
    split
    · next hlt =>
      rw [List.head?_cons, ne_eq, Option.some_inj]
      exact digitChar_ne h hlt
    · rw [List.head?_append_of_ne_nil _ Nat.toDigits_ne_nil]
      exact ih (n / 10) (by omega) (by omega)

lemma getLast?_toDigits (n : ℕ) : (Nat.toDigits 10 n).getLast? = some (n % 10).digitChar := by
  rw [Nat.toDigits_eq_if (by decide)]
  split
  · next hlt => rw [Nat.mod_eq_of_lt hlt, List.getLast?_singleton]
  · rw [List.getLast?_concat]

/-- Zeros in front of and behind digits that neither start nor end in one. -/
lemma significantDigits_of_filter {text ds : List Char} {i j : ℕ}
    (h : text.filter Char.isDigit = List.replicate i '0' ++ ds ++ List.replicate j '0')
    (hhead : ds.head? ≠ some '0') (hlast : ds.getLast? ≠ some '0') (hne : ds ≠ []) :
    significantDigits text = ds := by
  have hzeros (n : ℕ) : ∀ c ∈ List.replicate n '0', (c == '0') = true :=
    fun c hc => beq_iff_eq.2 (List.eq_of_mem_replicate hc)
  have hdrop {cs : List Char} (hcs : cs.head? ≠ some '0') : cs.dropWhile (· == '0') = cs := by
    cases cs with
    | nil => rfl
    | cons c cs => exact List.dropWhile_cons_of_neg (by simpa using hcs)
  have hfront : (ds ++ List.replicate j '0').head? ≠ some '0' := by
    rwa [List.head?_append_of_ne_nil _ hne]
  rw [significantDigits, h, List.append_assoc, List.dropWhile_append_of_pos (hzeros i), hdrop hfront,
    List.rdropWhile, List.reverse_append, List.reverse_replicate,
    List.dropWhile_append_of_pos (hzeros j), hdrop (by rwa [List.head?_reverse]),
    List.reverse_reverse]

namespace Scaled

lemma filter_isDigit_eq_self {ds : List Char} (h : ∀ c ∈ ds, c.isDigit = true) :
    ds.filter Char.isDigit = ds :=
  List.filter_eq_self.2 h

/-- The significant digits of a printed decimal are its own. -/
lemma significantDigits_append_numeral (sign : List Char) (hsign : sign.filter Char.isDigit = [])
    {s : Scaled} (h : s.digits % 10 ≠ 0) :
    significantDigits (sign ++ s.numeral) = Nat.toDigits 10 s.digits := by
  have hdigits := isDigit_toDigits s.digits
  have hends : (Nat.toDigits 10 s.digits).head? ≠ some '0' ∧
      (Nat.toDigits 10 s.digits).getLast? ≠ some '0' := by
    refine ⟨head?_toDigits (by omega), ?_⟩
    rw [getLast?_toDigits, ne_eq, Option.some_inj]
    exact digitChar_ne (by omega) (by omega)
  -- the digits in their places, with the zeros around them
  obtain ⟨i, j, hfilter⟩ : ∃ i j, s.numeral.filter Char.isDigit =
      List.replicate i '0' ++ Nat.toDigits 10 s.digits ++ List.replicate j '0' := by
    unfold numeral
    dsimp only
    split
    · refine ⟨0, s.exponent.toNat, ?_⟩
      rw [List.replicate_zero, List.nil_append]
      exact filter_isDigit_eq_self (List.forall_mem_append.2 ⟨hdigits, isDigit_zeros _⟩)
    · refine ⟨(-s.exponent).toNat + 1 - (Nat.toDigits 10 s.digits).length, 0, ?_⟩
      have hpoint : ('.' : Char).isDigit ≠ true := by decide
      rw [List.filter_append, List.filter_cons_of_neg hpoint, ← List.filter_append,
        List.take_append_drop, List.replicate_zero, List.append_nil]
      exact filter_isDigit_eq_self (List.forall_mem_append.2 ⟨isDigit_zeros _, hdigits⟩)
  refine significantDigits_of_filter (i := i) (j := j) ?_ hends.1 hends.2 Nat.toDigits_ne_nil
  rw [List.filter_append, hsign, List.nil_append]
  exact hfilter

lemma getLast?_point {ds : List Char} {i : ℕ} (h : i < ds.length) :
    (ds.take i ++ '.' :: ds.drop i).getLast? = ds.getLast? := by
  have hne : ds.drop i ≠ [] := by
    apply List.ne_nil_of_length_pos
    rw [List.length_drop]
    omega
  conv_rhs => rw [← List.take_append_drop i ds]
  rw [List.getLast?_append_of_ne_nil _ (List.cons_ne_nil _ _), List.getLast?_cons_of_ne_nil hne,
    List.getLast?_append_of_ne_nil _ hne]

/-- Behind a point, a printed decimal does not end in a zero. -/
lemma getLast?_numeral {s : Scaled} (h : s.digits % 10 ≠ 0) (hpoint : '.' ∈ s.numeral) :
    s.numeral.getLast? ≠ some '0' := by
  have hnot : ('.' : Char).isDigit ≠ true := by decide
  unfold numeral at hpoint ⊢
  dsimp only at hpoint ⊢
  split
  · next hexponent =>
    rw [if_pos hexponent] at hpoint
    rcases List.mem_append.1 hpoint with hmem | hmem
    · exact absurd (isDigit_toDigits _ _ hmem) hnot
    · exact absurd (isDigit_zeros _ _ hmem) hnot
  · next hexponent =>
    rw [getLast?_point (by rw [List.length_append, List.length_replicate]; omega),
      List.getLast?_append_of_ne_nil _ Nat.toDigits_ne_nil, getLast?_toDigits, ne_eq,
      Option.some_inj]
    exact digitChar_ne (by omega) (by omega)

end Scaled

/-! ### The shortest numeral of a number -/

/-- The text reads as the number, and no decimal that does has fewer digits. -/
structure IsShortestNumeral (text : String) (x : Float) : Prop where
  readsAs : ReadsAs text x
  /-- A fraction does not end in a zero. -/
  noTrailingZero : '.' ∈ text.toList → text.toList.getLast? ≠ some '0'
  fewest : ∀ (negative : Bool) (c : ℕ) (k : ℤ), NearestIs negative (c * 10 ^ k) x →
    (significantDigits text.toList).length ≤ (Nat.toDigits 10 c).length

/-- The numeral of a zero, of either sign. -/
lemma isShortestNumeral_zero (h : Binary.ofFloat x = .finite negative 0 q) :
    IsShortestNumeral (numeral x) x := by
  have htext : (numeral x).toList = (if negative then ['-'] else []) ++ ['0'] := by
    rw [numeral, h, String.toList_ofList]
    rfl
  have hnearest : IsNearest 0 0 q := by
    have hself := isNearest_of_roundsTo (of_ofFloat h).1 (roundsTo_self 0 q)
    rwa [binaryValue, Nat.cast_zero, zero_mul] at hself
  refine ⟨⟨negative, 0, ⟨['0'], htext, denotes_zero⟩, 0, q, h, hnearest⟩, ?_, ?_⟩
  · rw [htext]
    cases negative <;> simp
  · intro negative' c k _
    have hnone : significantDigits (numeral x).toList = [] := by
      rw [htext]
      cases negative <;> rfl
    rw [hnone]
    exact Nat.zero_le _

/-- The numeral of any other number. -/
lemma isShortestNumeral_shortest (h : Binary.ofFloat x = .finite negative m q) (hm : 0 < m) :
    IsShortestNumeral (numeral x) x := by
  have hcanonical := (of_ofFloat h).1
  obtain ⟨hrounds, hlast, hfewest⟩ := shortest_spec hcanonical hm
  let sign : List Char := if negative then ['-'] else []
  have htext : (numeral x).toList = sign ++ (shortest m q).numeral := by
    rw [numeral, h, String.toList_ofList, Binary.numeral, if_neg hm.ne']
  have hsign : sign.filter Char.isDigit = [] ∧ '.' ∉ sign := by
    cases negative <;> decide
  have hne := (shortest m q).denotes_numeral.ne_nil
  refine ⟨⟨negative, (shortest m q).value, ⟨_, htext, (shortest m q).denotes_numeral⟩, m, q, h,
    isNearest_of_roundsTo hcanonical hrounds⟩, ?_, ?_⟩
  · rw [htext, List.getLast?_append_of_ne_nil _ hne, List.mem_append]
    exact fun hpoint => Scaled.getLast?_numeral hlast (hpoint.resolve_left hsign.2)
  · rintro negative' c k ⟨m', q', h', hnearest⟩
    obtain ⟨-, rfl, rfl⟩ := Binary.finite.inj (h.symm.trans h')
    rw [htext, Scaled.significantDigits_append_numeral sign hsign.1 hlast]
    exact hfewest c k (hnearest.roundsTo hm)

/-- **The numeral** of a finite number is its shortest. -/
theorem isShortestNumeral_numeral (h : x.isFinite = true) : IsShortestNumeral (numeral x) x := by
  obtain ⟨negative, m, q, hfloat⟩ := isFinite_iff.1 h
  rcases Nat.eq_zero_or_pos m with rfl | hm
  · exact isShortestNumeral_zero hfloat
  · exact isShortestNumeral_shortest hfloat hm

end BurnRate.Decimal

namespace BurnRate.Objective

open Decimal

/-- The marker and the budget rule of an objective hold the shortest numeral of the budget. -/
structure RecordsBudget (o : Objective) (rs : List Rule) : Prop where
  marker : ∃ labels expr, rs.head? = some (.recording Series.definition labels expr) ∧
    labels.get? budgetLabel = some o.budgetText
  rule : ∃ labels, rs[1]? = some (.recording Series.errorBudget labels o.budgetText)
  numeral : IsShortestNumeral o.budgetText o.budget

/-- **Budgets** are recorded exactly: the marker and the budget rule hold the same text, which is the
shortest numeral of the budget, so that a text belongs to one budget only. -/
theorem budget_recordedExactly :
    (∀ (o : Objective) (template : String) (params : Labels), o.budget.isFinite = true →
      o.RecordsBudget (o.rules template params)) ∧
      ∀ o p : Objective, o.budget.isFinite = true → p.budget.isFinite = true →
        o.budgetText = p.budgetText → o.budget = p.budget := by
  have hnumeral {o : Objective} (h : o.budget.isFinite = true) :
      IsShortestNumeral o.budgetText o.budget := isShortestNumeral_numeral h
  refine ⟨fun o template params h => ?_, fun o p ho hp htext => ?_⟩
  · exact ⟨⟨_, _, rfl, o.get?_markerLabels_budget template params⟩, ⟨_, rfl⟩, hnumeral h⟩
  · have hreads := (hnumeral hp).readsAs
    rw [← htext] at hreads
    exact (hnumeral ho).readsAs.unique hreads

/-- The smallest number, and two budgets with one text. -/
theorem tenth_recordedExactly :
    RecordsBudget { name := "api", budget := Float.ofBits 1 }
      (rules { name := "api", budget := Float.ofBits 1 } "ErrorRateSLO" ∅) ∧
      (0.1 : Float) = 1 / 10 :=
  ⟨budget_recordedExactly.1 { name := "api", budget := Float.ofBits 1 } "ErrorRateSLO" ∅
      (by decide +kernel),
    budget_recordedExactly.2 { name := "api", budget := 0.1 } { name := "api", budget := 1 / 10 }
      (by decide +kernel) (by decide +kernel) (by decide +kernel)⟩

end BurnRate.Objective
