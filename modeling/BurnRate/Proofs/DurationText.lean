import BurnRate.Duration.Parser
import BurnRate.Duration.Printer
import BurnRate.Proofs.Results
import Mathlib.Algebra.BigOperators.Group.List.Basic
import Mathlib.Algebra.GroupWithZero.Nat

/-!
A printed duration is read back as the duration it was printed from.

The reader keeps a sum to which every part adds what its amount and its unit are worth. What the
nine parts of a duration are worth adds up to the duration, so that no sum on the way leaves the
range of words.
-/

namespace BurnRate

/-! ### Characters and texts -/

lemma between_of_isUpper {c : Char} (h : c.isUpper = true) : 'A' ≤ c ∧ c ≤ 'Z' :=
  of_decide_eq_true h

lemma between_of_isLower {c : Char} (h : c.isLower = true) : 'a' ≤ c ∧ c ≤ 'z' := by
  have hboth : (decide ('a' ≤ c) && decide (c ≤ 'z')) = true := h
  simpa using hboth

lemma between_of_isDigit {c : Char} (h : c.isDigit = true) : '0' ≤ c ∧ c ≤ '9' := by
  have hboth : (decide ('0' ≤ c) && decide (c ≤ '9')) = true := h
  simpa using hboth

namespace Text

lemma trim_eq_self {s : String} (hfirst : ∀ c ∈ s.toList.head?, isBlank c = false)
    (hlast : ∀ c ∈ s.toList.getLast?, isBlank c = false) : trim s = s := by
  have hdrop (cs : List Char) (h : ∀ c ∈ cs.head?, isBlank c = false) :
      cs.dropWhile isBlank = cs := by
    cases cs with
    | nil => rfl
    | cons c cs => rw [List.dropWhile_cons_of_neg (by simp [h c rfl])]
  have hstart : trimStart s.toList = s.toList := hdrop _ hfirst
  have hend : trimEnd s.toList = s.toList := by
    rw [trimEnd, hdrop _ (by rwa [List.head?_reverse]), List.reverse_reverse]
  rw [trim, hstart, hend, String.ofList_toList]

end Text

namespace Duration

/-! ### One part -/

/-- What one unit is worth, in seconds and nanoseconds. -/
def Unit.scale : Unit → ℕ × ℕ
  | .nanosecond => (0, 1)
  | .microsecond => (0, 1000)
  | .millisecond => (0, 1000000)
  | .second => (1, 0)
  | .minute => (60, 0)
  | .hour => (3600, 0)
  | .day => (secondsPerDay, 0)
  | .week => (secondsPerWeek, 0)
  | .month => (secondsPerMonth, 0)
  | .year => (secondsPerYear, 0)

lemma Unit.whole?_eq {u : Unit} {n : ℕ} (hseconds : n * u.scale.1 < 0x10000000000000000)
    (hnanos : n * u.scale.2 < 0x10000000000000000) :
    u.whole? n = some (n * u.scale.1, n * u.scale.2) := by
  cases u <;> simp_all [whole?, scale, product?]

namespace Part

/-- The part is counted in a unit that the reader knows. -/
structure IsIn (p : Part) (u : Unit) : Prop where
  name : Unit.ofName? p.unit = some u
  nonempty : p.unit.toList ≠ []
  letters : ∀ c ∈ p.unit.toList, isUnitLetter c = true

lemma isIn_of_all {p : Part} {u : Unit} (hname : Unit.ofName? p.unit = some u)
    (hnonempty : p.unit.toList ≠ []) (hletters : p.unit.toList.all isUnitLetter = true) :
    p.IsIn u :=
  ⟨hname, hnonempty, List.all_eq_true.1 hletters⟩

def seconds (p : Part) : ℕ := p.amount * ((Unit.ofName? p.unit).elim 0 (·.scale.1))

def nanos (p : Part) : ℕ := p.amount * ((Unit.ofName? p.unit).elim 0 (·.scale.2))

variable {p : Part} {u : Unit}

lemma toList_text (p : Part) : p.text.toList = Nat.toDigits 10 p.amount ++ p.unit.toList := by
  rw [text, String.toList_append, Nat.toString_eq_repr, Nat.toList_repr]

lemma IsIn.seconds_eq (h : p.IsIn u) : p.seconds = p.amount * u.scale.1 := by
  rw [seconds, h.name, Option.elim_some]

lemma IsIn.nanos_eq (h : p.IsIn u) : p.nanos = p.amount * u.scale.2 := by
  rw [nanos, h.name, Option.elim_some]

lemma amount_le (h : p.IsIn u) : p.amount ≤ p.seconds ∨ p.amount ≤ p.nanos := by
  rw [h.seconds_eq, h.nanos_eq]
  have hscale : 0 < u.scale.1 ∨ 0 < u.scale.2 := by cases u <;> decide
  exact hscale.imp (Nat.le_mul_of_pos_right _) (Nat.le_mul_of_pos_right _)

end Part

/-! ### The reader on one part -/

section

variable {sum : ℕ × ℕ} {first : Bool} {n : ℕ}

lemma not_blank_of_isDigit {c : Char} (h : c.isDigit = true) : Text.isBlank c = false := by
  have hc : 48 ≤ c.toNat ∧ c.toNat ≤ 57 := between_of_isDigit h
  simp only [Text.isBlank, Bool.or_eq_false_iff, Bool.and_eq_false_iff, decide_eq_false_iff_not,
    beq_eq_false_iff_ne]
  omega

/-- Letters of units are neither digits nor blank. -/
lemma of_isUnitLetter {c : Char} (h : isUnitLetter c = true) :
    c.isDigit = false ∧ Text.isBlank c = false := by
  have hc : (65 ≤ c.toNat ∧ c.toNat ≤ 90) ∨ (97 ≤ c.toNat ∧ c.toNat ≤ 122) ∨ c.toNat = 181 := by
    rw [isUnitLetter, Bool.or_eq_true, beq_iff_eq] at h
    rcases h with h | rfl
    · rcases Bool.or_eq_true_iff.1 h with h | h
      · exact .inl (between_of_isUpper h)
      · exact .inr (.inl (between_of_isLower h))
    · decide
  have hdigit : ¬ (48 ≤ c.toNat ∧ c.toNat ≤ 57) := by omega
  refine ⟨by simpa [Char.isDigit, UInt32.le_iff_toNat_le] using hdigit, ?_⟩
  simp only [Text.isBlank, Bool.or_eq_false_iff, Bool.and_eq_false_iff, decide_eq_false_iff_not,
    beq_eq_false_iff_ne]
  omega

lemma push?_digitChar (hn : n < 0x10000000000000000) :
    push? (n / 10) (n % 10).digitChar = some n := by
  have hdigit : (n % 10).digitChar.toNat - 48 = n % 10 :=
    Nat.toNat_digitChar_sub_48_of_lt_ten (Nat.mod_lt n (by omega))
  have hword : n / 10 * 10 < 0x10000000000000000 := by omega
  have hsum : n / 10 * 10 + n % 10 = n := by omega
  simp [push?, product?, hdigit, hword, hsum, hn]

/-- Decimal digits are read as the number they stand for. -/
lemma readFrom?_toDigits (hn : n < 0x10000000000000000) (rest : List Char) :
    readFrom? sum (.gap first) (Nat.toDigits 10 n ++ rest) = readFrom? sum (.whole n) rest := by
  induction n using Nat.strongRecOn generalizing rest with
  | ind n ih =>
    by_cases hlt : n < 10
    · have hdigit : n.digitChar.isDigit = true := by simpa [Nat.isDigit_digitChar] using hlt
      rw [Nat.toDigits_of_lt_base hlt, List.singleton_append, readFrom?, if_pos hdigit,
        Nat.toNat_digitChar_sub_48_of_lt_ten hlt]
    · have hdigit : (n % 10).digitChar.isDigit = true := by
        simpa [Nat.isDigit_digitChar] using Nat.mod_lt n (by omega)
      rw [Nat.toDigits_of_base_le (by omega) (by omega), List.append_assoc,
        ih (n / 10) (by omega) (by omega), List.singleton_append, readFrom?, if_pos hdigit,
        push?_digitChar hn]
      rfl

lemma readFrom?_letters {f? : Option Fraction} {cs : List Char}
    (h : ∀ c ∈ cs, isUnitLetter c = true) (letters rest : List Char) :
    readFrom? sum (.unit n f? letters) (cs ++ rest) =
      readFrom? sum (.unit n f? (cs.reverse ++ letters)) rest := by
  induction cs generalizing letters with
  | nil => rfl
  | cons c cs ih =>
    obtain ⟨hc, hcs⟩ := List.forall_mem_cons.1 h
    rw [List.cons_append, readFrom?, if_pos hc, ih hcs, List.reverse_cons, List.append_assoc,
      List.singleton_append]

/-- A number with the letters of a unit behind it. -/
lemma readFrom?_unit {cs : List Char} (hne : cs ≠ []) (h : ∀ c ∈ cs, isUnitLetter c = true)
    (rest : List Char) :
    readFrom? sum (.whole n) (cs ++ rest) = readFrom? sum (.unit n none cs.reverse) rest := by
  cases cs with
  | nil => exact absurd rfl hne
  | cons c cs =>
    obtain ⟨hc, hcs⟩ := List.forall_mem_cons.1 h
    obtain ⟨hdigit, hblank⟩ := of_isUnitLetter hc
    rw [List.cons_append, readFrom?]
    simp only [hdigit, hblank, hc, Bool.false_eq_true, if_false, if_true]
    rw [readFrom?_letters hcs, List.reverse_cons]

/-- The sum behind a part that keeps it in range. -/
lemma addPart?_eq {p : Part} {u : Unit} (hp : p.IsIn u)
    (hseconds : sum.1 + p.seconds < 0x10000000000000000)
    (hnanos : sum.2 + p.nanos < 1000000000) :
    addPart? sum p.amount none p.unit.toList.reverse =
      some (sum.1 + p.seconds, sum.2 + p.nanos) := by
  have hwhole : u.whole? p.amount = some (p.seconds, p.nanos) := by
    rw [hp.seconds_eq, hp.nanos_eq]
    rw [hp.seconds_eq] at hseconds
    rw [hp.nanos_eq] at hnanos
    exact Unit.whole?_eq (by omega) (by omega)
  have hcarry : (sum.2 + p.nanos) / 1000000000 = 0 := by omega
  have hword : sum.2 + p.nanos < 0x10000000000000000 := by omega
  have hadd : add? sum (p.seconds, p.nanos) = some (sum.1 + p.seconds, sum.2 + p.nanos) := by
    simp [add?, hcarry, hword, hseconds, Nat.mod_eq_of_lt hnanos]
  simp [addPart?, hp.name, hwhole, hadd]

variable (sum first) in
/-- Reading a part adds its worth, at the end of the text as well as before a blank. -/
lemma readFrom?_part {p : Part} {u : Unit} (hp : p.IsIn u)
    (hseconds : sum.1 + p.seconds < 0x10000000000000000)
    (hnanos : sum.2 + p.nanos < 1000000000) :
    readFrom? sum (.gap first) p.text.toList = some (sum.1 + p.seconds, sum.2 + p.nanos) ∧
      ∀ rest, readFrom? sum (.gap first) (p.text.toList ++ ' ' :: rest) =
        readFrom? (sum.1 + p.seconds, sum.2 + p.nanos) (.gap false) rest := by
  have hamount : p.amount < 0x10000000000000000 := by
    rcases Part.amount_le hp with h | h <;> omega
  have hadd := addPart?_eq hp hseconds hnanos
  have hread (rest : List Char) : readFrom? sum (.gap first) (p.text.toList ++ rest) =
      readFrom? sum (.unit p.amount none p.unit.toList.reverse) rest := by
    rw [p.toList_text, List.append_assoc, readFrom?_toDigits hamount,
      readFrom?_unit hp.nonempty hp.letters]
  constructor
  · have hend := hread []
    rwa [List.append_nil, readFrom?, hadd] at hend
  · intro rest
    have hspace : isUnitLetter ' ' = false := by decide
    have hblank : Text.isBlank ' ' = true := by decide
    rw [hread, readFrom?]
    simp only [hspace, hblank, hadd, Bool.false_eq_true, if_false, if_true]
    rfl

end

/-! ### Parts in a row -/

/-- Parts with single spaces between them, as they are printed. -/
def join (ps : List Part) : String := " ".intercalate (ps.map Part.text)

lemma toList_join_singleton (p : Part) : (join [p]).toList = p.text.toList := by
  simp [join]

lemma toList_join_cons (p q : Part) (ps : List Part) :
    (join (p :: q :: ps)).toList = p.text.toList ++ ' ' :: (join (q :: ps)).toList := by
  simp [join, String.toList_intercalate]

lemma readFrom?_join {ps : List Part} (hne : ps ≠ []) (hps : ∀ p ∈ ps, ∃ u, p.IsIn u)
    (sum : ℕ × ℕ) (first : Bool)
    (hseconds : sum.1 + (ps.map Part.seconds).sum < 0x10000000000000000)
    (hnanos : sum.2 + (ps.map Part.nanos).sum < 1000000000) :
    readFrom? sum (.gap first) (join ps).toList =
      some (sum.1 + (ps.map Part.seconds).sum, sum.2 + (ps.map Part.nanos).sum) := by
  induction ps generalizing sum first with
  | nil => exact absurd rfl hne
  | cons p ps ih =>
    obtain ⟨⟨u, hp⟩, hps⟩ := List.forall_mem_cons.1 hps
    simp only [List.map_cons, List.sum_cons] at hseconds hnanos ⊢
    obtain ⟨hend, hnext⟩ := readFrom?_part sum first hp (by omega) (by omega)
    cases ps with
    | nil => simpa [toList_join_singleton] using hend
    | cons q ps =>
      rw [toList_join_cons, hnext, ih (by simp) hps _ _ (by simp only; omega) (by simp only; omega)]
      simp only [Nat.add_assoc]

/-- Parts that are zero add nothing. -/
lemma sum_filter_amount (worth : Part → ℕ) (h : ∀ p : Part, p.amount = 0 → worth p = 0)
    (ps : List Part) : ((ps.filter (·.amount != 0)).map worth).sum = (ps.map worth).sum := by
  induction ps with
  | nil => rfl
  | cons p ps ih =>
    by_cases hp : p.amount = 0
    · rw [List.filter_cons_of_neg (by simp [hp]), ih, List.map_cons, List.sum_cons, h p hp,
        Nat.zero_add]
    · rw [List.filter_cons_of_pos (by simp [hp]), List.map_cons, List.map_cons, List.sum_cons,
        List.sum_cons, ih]

/-! ### The parts of a duration -/

lemma Part.IsIn.counted {unit : String} {u : Unit} (hone : IsIn ⟨1, unit⟩ u)
    (hmany : IsIn ⟨0, unit ++ "s"⟩ u) (amount : ℕ) : (Part.counted amount unit).IsIn u := by
  rw [Part.counted]
  split
  · exact ⟨hone.name, hone.nonempty, hone.letters⟩
  · exact ⟨hmany.name, hmany.nonempty, hmany.letters⟩

variable (d : Duration)

lemma forall₂_parts : List.Forall₂ Part.IsIn d.parts
    [.year, .month, .day, .hour, .minute, .second, .millisecond, .microsecond, .nanosecond] := by
  have hyear (n : ℕ) : (Part.counted n "year").IsIn .year :=
    .counted (Part.isIn_of_all rfl (by decide) (by decide))
      (Part.isIn_of_all rfl (by decide) (by decide)) n
  have hmonth (n : ℕ) : (Part.counted n "month").IsIn .month :=
    .counted (Part.isIn_of_all rfl (by decide) (by decide))
      (Part.isIn_of_all rfl (by decide) (by decide)) n
  have hday (n : ℕ) : (Part.counted n "day").IsIn .day :=
    .counted (Part.isIn_of_all rfl (by decide) (by decide))
      (Part.isIn_of_all rfl (by decide) (by decide)) n
  refine .cons (hyear _) (.cons (hmonth _) (.cons (hday _) (.cons ?_ (.cons ?_ (.cons ?_
    (.cons ?_ (.cons ?_ (.cons ?_ .nil))))))))
  all_goals exact ⟨rfl, by simp, by simp; decide⟩

lemma map_seconds_eq {ps : List Part} {us : List Unit} (h : List.Forall₂ Part.IsIn ps us) :
    ps.map Part.seconds = List.zipWith (fun p u => p.amount * u.scale.1) ps us := by
  induction h with
  | nil => rfl
  | cons hp _ ih => rw [List.map_cons, List.zipWith_cons_cons, hp.seconds_eq, ih]

lemma map_nanos_eq {ps : List Part} {us : List Unit} (h : List.Forall₂ Part.IsIn ps us) :
    ps.map Part.nanos = List.zipWith (fun p u => p.amount * u.scale.2) ps us := by
  induction h with
  | nil => rfl
  | cons hp _ ih => rw [List.map_cons, List.zipWith_cons_cons, hp.nanos_eq, ih]

/-- The seconds of the parts are the seconds of the duration. -/
lemma sum_seconds_parts : (d.parts.map Part.seconds).sum = d.seconds := by
  rw [map_seconds_eq d.forall₂_parts]
  simp only [parts, List.zipWith_cons_cons, List.zipWith_nil_left, Part.counted, Unit.scale,
    secondsPerYear, secondsPerMonth, secondsPerDay]
  -- one sum at a time: the simplifier would leave the products to be computed
  iterate 9 rw [List.sum_cons]
  rw [List.sum_nil]
  omega

lemma sum_nanos_parts : (d.parts.map Part.nanos).sum = d.nanos := by
  rw [map_nanos_eq d.forall₂_parts]
  simp only [parts, List.zipWith_cons_cons, List.zipWith_nil_left, Unit.scale]
  iterate 9 rw [List.sum_cons]
  rw [List.sum_nil]
  omega

lemma isIn_of_mem_parts : ∀ p ∈ d.parts, ∃ u, p.IsIn u := by
  intro p hp
  obtain ⟨u, -, hu⟩ := exists_of_mem_forall₂ d.forall₂_parts.flip hp
  exact ⟨u, hu⟩

/-! ### The whole text -/

/-- The text of a duration shows parts, in units that the reader knows, that are worth the
duration. -/
lemma exists_parts_text : ∃ ps : List Part, ps ≠ [] ∧ (∀ p ∈ ps, ∃ u, p.IsIn u) ∧
    (ps.map Part.seconds).sum = d.seconds ∧ (ps.map Part.nanos).sum = d.nanos ∧
      d.text = join ps := by
  have hseconds := sum_filter_amount Part.seconds
    (fun p hp => by rw [Part.seconds, hp, Nat.zero_mul]) d.parts
  have hnanos := sum_filter_amount Part.nanos
    (fun p hp => by rw [Part.nanos, hp, Nat.zero_mul]) d.parts
  rw [sum_seconds_parts] at hseconds
  rw [sum_nanos_parts] at hnanos
  rw [text]
  split
  · next hnil =>
    rw [hnil] at hseconds hnanos
    have hzero : Part.IsIn ⟨0, "s"⟩ .second :=
      Part.isIn_of_all rfl (by decide) (by decide)
    exact ⟨[⟨0, "s"⟩], by simp, by simpa using ⟨_, hzero⟩, by simpa [Part.seconds] using hseconds,
      by simpa [Part.nanos] using hnanos, rfl⟩
  · next ps hne =>
    refine ⟨_, hne, fun p hp => ?_, hseconds, hnanos, rfl⟩
    exact d.isIn_of_mem_parts p (List.mem_of_mem_filter hp)

lemma Part.IsIn.text_ends {p : Part} {u : Unit} (h : p.IsIn u) :
    (∃ c cs, p.text.toList = c :: cs ∧ c.isDigit = true) ∧
      ∃ cs c, p.text.toList = cs ++ [c] ∧ isUnitLetter c = true := by
  rw [p.toList_text]
  constructor
  · cases hdigits : Nat.toDigits 10 p.amount with
    | nil => exact absurd hdigits Nat.toDigits_ne_nil
    | cons c cs =>
      refine ⟨c, _, rfl, Nat.isDigit_of_mem_toDigits (n := p.amount) (b := 10) ?_ ?_ ?_⟩
      · omega
      · omega
      · rw [hdigits]
        exact List.mem_cons_self
  · refine ⟨Nat.toDigits 10 p.amount ++ p.unit.toList.dropLast, _, ?_,
      h.letters _ (List.getLast_mem h.nonempty)⟩
    rw [List.append_assoc, List.dropLast_append_getLast]

/-- Parts in a row start with a digit and end with a letter. -/
lemma join_ends {ps : List Part} (hne : ps ≠ []) (hps : ∀ p ∈ ps, ∃ u, p.IsIn u) :
    (∃ c cs, (join ps).toList = c :: cs ∧ c.isDigit = true) ∧
      ∃ cs c, (join ps).toList = cs ++ [c] ∧ isUnitLetter c = true := by
  induction ps with
  | nil => exact absurd rfl hne
  | cons p ps ih =>
    obtain ⟨⟨u, hp⟩, hps⟩ := List.forall_mem_cons.1 hps
    obtain ⟨⟨c, cs, hhead, hdigit⟩, hlast⟩ := hp.text_ends
    cases ps with
    | nil =>
      rw [toList_join_singleton]
      exact ⟨⟨c, cs, hhead, hdigit⟩, hlast⟩
    | cons q ps =>
      obtain ⟨-, ds, d, hlast, hletter⟩ := ih (by simp) hps
      rw [toList_join_cons]
      refine ⟨⟨c, _, by rw [hhead, List.cons_append], hdigit⟩, p.text.toList ++ ' ' :: ds, d, ?_,
        hletter⟩
      rw [hlast, List.append_assoc, List.cons_append]

/-- No white space stands around a printed duration. -/
lemma trim_text : Text.trim d.text = d.text := by
  obtain ⟨ps, hne, hps, -, -, htext⟩ := d.exists_parts_text
  obtain ⟨⟨c, cs, hhead, hdigit⟩, ds, e, hlast, hletter⟩ := join_ends hne hps
  rw [htext]
  refine Text.trim_eq_self (fun x hx => ?_) fun x hx => ?_
  · rw [hhead, List.head?_cons, Option.mem_some_iff] at hx
    exact not_blank_of_isDigit (hx ▸ hdigit)
  · rw [hlast, List.getLast?_concat, Option.mem_some_iff] at hx
    exact (of_isUnitLetter (hx ▸ hletter)).2

/-- A printed duration is read back as it was. -/
lemma parse?_text : parse? d.text = some d := by
  obtain ⟨ps, hne, hps, hseconds, hnanos, htext⟩ := d.exists_parts_text
  obtain ⟨-, cs, c, hlast, hletter⟩ := join_ends hne hps
  have hzero : (d.text == "0") = false := by
    rw [beq_eq_false_iff_ne]
    intro h
    have hlist : cs ++ [c] = [] ++ ['0'] := by rw [← hlast, ← htext, h]; rfl
    obtain ⟨-, hc⟩ := List.append_inj' hlist rfl
    rw [(List.cons.inj hc).1] at hletter
    cases hletter
  have hread : readFrom? (0, 0) (.gap true) d.text.toList = some (d.seconds, d.nanos) := by
    have h := readFrom?_join hne hps (0, 0) true
      (by simpa [hseconds] using d.seconds_lt) (by simpa [hnanos] using d.nanos_lt)
    rw [htext, h, hseconds, hnanos, Nat.zero_add, Nat.zero_add]
  have hof : of? d.seconds d.nanos = some d := by rw [of?, dif_pos ⟨d.seconds_lt, d.nanos_lt⟩]
  rw [parse?, hzero, hread]
  exact hof

/-- The text tells the duration. -/
lemma text_injective {d e : Duration} (h : d.text = e.text) : d = e := by
  have hread := d.parse?_text
  rw [h, e.parse?_text] at hread
  exact (Option.some.inj hread).symm

end Duration

end BurnRate
