import BurnRate.Proofs.ScalarLines
import BurnRate.Yaml.Token.Flow

/-!
Plain scalars are read back character by character, as keys and as values.

The scan is followed from the middle of a text: what was read so far and the gap behind it make up
what was written so far.
-/

namespace BurnRate.Yaml

variable {c d : Char} {cs tail : List Char}

lemma endsToken_append (h : endsWord cs = false) (tail : List Char) :
    endsToken (cs ++ tail) = false := by
  cases cs with
  | nil => simp [endsWord] at h
  | cons c cs =>
    simp only [endsWord, Bool.or_eq_false_iff] at h
    simp [endsToken, h.1.1, h.1.2]

lemma holdsIndicator_cons {a b : Char} (h : holdsIndicator (a :: b :: cs) = false) :
    holdsIndicator (b :: cs) = false ∧ (b = ':' → endsWord cs = false) ∧
      (b = '#' → endsWord [a] = false) := by
  by_cases hb : b = ':'
  · subst hb
    simp only [holdsIndicator, Bool.or_eq_false_iff] at h
    exact ⟨h.2, fun _ => h.1, fun h => absurd h (by decide)⟩
  · by_cases hb' : b = '#'
    · subst hb'
      simp only [holdsIndicator, Bool.or_eq_false_iff] at h
      exact ⟨h.2, fun h => absurd h (by decide), fun _ => h.1⟩
    · have hskip : holdsIndicator (a :: b :: cs) = holdsIndicator (b :: cs) := by
        rw [holdsIndicator]
        · intro r hr; exact hb (by injection hr)
        · intro r hr; exact hb' (by injection hr)
      exact ⟨hskip ▸ h, fun h => absurd h hb, fun h => absurd h hb'⟩

lemma plainStep_take (h : c = ':' → endsToken cs = false) : plainStep false c cs = .take := by
  by_cases hc : c = ':'
  · simp [plainStep, h hc]
  · simp [plainStep, hc]

section

variable {margin line col : ℕ} {read : List Char} {gap : Gap}

/-- One step behind a gap. -/
lemma scanPlain_cons :
    scanPlain false margin read gap line col (c :: cs) =
      if isBreak c then scanPlain false margin read (gap.pushBreak c) (line + 1) 0 cs
      else if isSpacing c then
        if gap.hasBreak && col < margin && c == '\t' then none
        else scanPlain false margin read (gap.pushBlank c) line (col + 1) cs
      else
        let atWord := match gap with
          | .blanks [] => false
          | _ => true
        let ends := (atWord && (col < margin || c == '#'))
          || (col == 0 && isDocumentMark (c :: cs))
        match if ends then PlainStep.stop else plainStep false c cs with
        | .fail => none
        | .stop => some ⟨read.reverse, ⟨c :: cs, line, col⟩, gap.hasBreak⟩
        | .take =>
          scanPlain false margin (c :: (gap.folded ++ read)) (.blanks []) line (col + 1) cs := by
  rw [scanPlain.eq_def]
  rfl

lemma scanPlain_break (h : isBreak c = true) :
    scanPlain false margin read gap line col (c :: cs) =
      scanPlain false margin read (gap.pushBreak c) (line + 1) 0 cs := by
  rw [scanPlain_cons, if_pos h]

lemma scanPlain_space :
    scanPlain false margin read gap line col (' ' :: cs) =
      scanPlain false margin read (gap.pushBlank ' ') line (col + 1) cs := by
  have hb : isBreak ' ' = false := by decide
  have hs : isSpacing ' ' = true := by decide
  simp [scanPlain_cons, hb, hs]

lemma scanPlain_take (hb : isBreak c = false) (hs : isSpacing c = false)
    (hgap : gap = .blanks [] ∨ margin ≤ col ∧ c ≠ '#')
    (hmark : col = 0 → isDocumentMark (c :: cs) = false)
    (hcolon : c = ':' → endsToken cs = false) :
    scanPlain false margin read gap line col (c :: cs) =
      scanPlain false margin (c :: (gap.folded ++ read)) (.blanks []) line (col + 1) cs := by
  have hstep := plainStep_take hcolon
  have hmark' : (col == 0 && isDocumentMark (c :: cs)) = false := by
    by_cases h : col = 0 <;> simp [h, hmark]
  rcases hgap with rfl | ⟨hm, hc⟩
  · simp [scanPlain_cons, hb, hs, hmark', hstep]
  · have : ¬ col < margin := by omega
    have hc' : (c == '#') = false := by simpa using hc
    simp [scanPlain_cons, hb, hs, hmark', hstep, this, hc']

/-- A word at a column before the margin does not belong to the scalar. -/
lemma scanPlain_stop (hb : isBreak c = false) (hs : isSpacing c = false) (hm : col < margin)
    (hgap : gap.hasBreak = true) :
    scanPlain false margin read gap line col (c :: cs) =
      some ⟨read.reverse, ⟨c :: cs, line, col⟩, true⟩ := by
  cases gap with
  | blanks bs => cases hgap
  | breaks first? more => simp [scanPlain_cons, hb, hs, hm, Gap.hasBreak]

lemma scanPlain_colon (h : endsToken cs = true) :
    scanPlain false margin read (.blanks []) line col (':' :: cs) =
      some ⟨read.reverse, ⟨':' :: cs, line, col⟩, false⟩ := by
  have hb : isBreak ':' = false := by decide
  have hs : isSpacing ':' = false := by decide
  have hm : isDocumentMark (':' :: cs) = false := by
    rcases cs with _ | ⟨a, _ | ⟨b, cs⟩⟩ <;> simp [isDocumentMark, startsWithMark]
  have hstep : plainStep false ':' cs = .stop := by simp [plainStep, h]
  simp [scanPlain_cons, hb, hs, hm, hstep, Gap.hasBreak]

end

/-- From behind the first character of a plain scalar to its end. -/
lemma scanPlain_word {margin line col : ℕ} {read bs : List Char} {prev : Char}
    (hp : ∀ c ∈ cs, isPrintable c = true) (hb : ∀ c ∈ cs, isBreak c = false)
    (hi : holdsIndicator (prev :: cs) = false) (hm : margin ≤ col) (hcol : 0 < col)
    (hprev : bs ≠ [] → prev = ' ') (hlast : (prev :: cs).getLast? ≠ some ' ') :
    scanPlain false margin read (.blanks bs) line col (cs ++ tail) =
      scanPlain false margin (cs.reverse ++ bs ++ read) (.blanks []) line (col + cs.length)
        tail := by
  induction cs generalizing read bs prev col with
  | nil =>
    have : bs = [] := by
      by_contra hne
      exact hlast (by simp [hprev hne])
    simp [this]
  | cons c cs ih =>
    obtain ⟨hi', hcolon, hhash⟩ := holdsIndicator_cons hi
    have hp' : ∀ d ∈ cs, isPrintable d = true := fun d hd => hp d (by simp [hd])
    have hb' : ∀ d ∈ cs, isBreak d = false := fun d hd => hb d (by simp [hd])
    have hlast' : (c :: cs).getLast? ≠ some ' ' := by
      rwa [List.getLast?_cons_cons] at hlast
    have hlen : col + 1 + cs.length = col + (c :: cs).length := by simp; omega
    by_cases hs : c = ' '
    · subst hs
      rw [List.cons_append, scanPlain_space, Gap.pushBlank,
        ih hp' hb' hi' (by omega) (by omega) (fun _ => rfl) hlast', hlen]
      simp
    · have hsp : isSpacing c = false := by
        rw [isSpacing_of_printable (hp c (by simp))]; simpa [isSpace] using hs
      have hword : bs ≠ [] → c ≠ '#' := by
        rintro hne rfl
        have := hhash rfl
        rw [hprev hne] at this
        simp [endsWord, isSpacing] at this
      have hgap : Gap.blanks bs = .blanks [] ∨ margin ≤ col ∧ c ≠ '#' := by
        by_cases hbs : bs = []
        · exact .inl (by rw [hbs])
        · exact .inr ⟨hm, hword hbs⟩
      rw [List.cons_append, scanPlain_take (hb c (by simp)) hsp hgap (by omega)
        fun h => endsToken_append (hcolon h) tail,
        ih hp' hb' hi' (by omega) (by omega) (by simp) hlast', hlen]
      simp [Gap.folded]

lemma startsWithIndicator_cons (h : startsWithIndicator (c :: cs) = false) :
    isIndicator c = false ∧ (c = '?' ∨ c = ':' ∨ c = '-' → endsWord cs = false) := by
  unfold startsWithIndicator at h
  split at h
  · cases h
  · cases h
  · next heq =>
    cases heq
    simp only [Bool.or_eq_false_iff] at h
    refine ⟨h.1, fun hc => ?_⟩
    rcases hc with rfl | rfl | rfl <;> simpa using h.2
  · next heq => cases heq

/-- A text that is no mark of structure does not become a mark of the document by what follows. -/
lemma isDocumentMark_append (h : startsWithIndicator cs = false)
    (hdash : tail.head? ≠ some '-') (hdot : tail.head? ≠ some '.') :
    isDocumentMark (cs ++ tail) = false := by
  have hmark : ∀ m : Char, tail.head? ≠ some m → startsWithIndicator [m, m, m] = true →
      (∀ r, startsWithIndicator (m :: m :: m :: r) = true) →
      startsWithMark m (cs ++ tail) = false := by
    intro m hm _ hall
    by_contra hc
    rw [Bool.not_eq_false] at hc
    rcases cs with _ | ⟨x, _ | ⟨y, _ | ⟨z, r⟩⟩⟩
    · rcases tail with _ | ⟨x, _ | ⟨y, _ | ⟨z, r⟩⟩⟩ <;> simp_all [startsWithMark]
    · rcases tail with _ | ⟨y, _ | ⟨z, r⟩⟩ <;> simp_all [startsWithMark]
    · rcases tail with _ | ⟨z, r⟩ <;> simp_all [startsWithMark]
    · simp only [List.cons_append, startsWithMark, Bool.and_eq_true, beq_iff_eq] at hc
      obtain ⟨⟨⟨rfl, rfl⟩, rfl⟩, -⟩ := hc
      rw [hall] at h
      cases h
  simp [isDocumentMark, hmark '-' hdash rfl fun _ => rfl, hmark '.' hdot rfl fun _ => rfl]

/-- What makes a text fit to be written plain. -/
lemma allowsPlain_iff : allowsPlain cs = true ↔
    (∀ c ∈ cs, isPrintable c = true) ∧ holdsPair isSpace isBreak cs = false ∧
      (∀ c ∈ cs, isBreak c = false) ∧ startsWithIndicator cs = false ∧
      holdsIndicator cs = false ∧ cs.head? ≠ some ' ' ∧ cs.getLast? ≠ some ' ' := by
  have hany : ∀ o : Option Char, (!o.any isSpace) = true ↔ o ≠ some ' ' := by
    rintro (_ | x) <;> simp [isSpace]
  simp only [allowsPlain, needsEscape, Bool.and_eq_true, hany, Bool.not_eq_true',
    Bool.or_eq_false_iff, Bool.not_eq_false', List.all_eq_true, List.any_eq_false]
  simp only [Bool.not_eq_true]
  tauto

/-- A plain scalar up to its end. -/
lemma scanPlain_text {margin line col : ℕ} (h : allowsPlain cs = true) (hne : cs ≠ [])
    (hm : margin ≤ col + 1) (hdash : tail.head? ≠ some '-') (hdot : tail.head? ≠ some '.') :
    scanPlain false margin [] (.blanks []) line col (cs ++ tail) =
      scanPlain false margin cs.reverse (.blanks []) line (col + cs.length) tail := by
  obtain ⟨hp, -, hb, hstart, hholds, hhead, hlast⟩ := allowsPlain_iff.1 h
  obtain ⟨c, cs, rfl⟩ := List.exists_cons_of_ne_nil hne
  have hmark : isDocumentMark (c :: (cs ++ tail)) = false :=
    isDocumentMark_append hstart hdash hdot
  have hs : isSpacing c = false := by
    rw [isSpacing_of_printable (hp c (by simp))]
    simpa [isSpace] using hhead
  have hcolon : c = ':' → endsToken (cs ++ tail) = false := fun hc =>
    endsToken_append ((startsWithIndicator_cons hstart).2 (.inr (.inl hc))) tail
  have hlen : col + 1 + cs.length = col + (c :: cs).length := by simp; omega
  rw [List.cons_append, scanPlain_take (hb c (by simp)) hs (.inl rfl) (fun _ => hmark) hcolon,
    scanPlain_word (fun d hd => hp d (by simp [hd])) (fun d hd => hb d (by simp [hd])) hholds hm
      (by omega) (by simp) hlast, hlen]
  simp [Gap.folded]

lemma scanPlain_follows {margin line : ℕ} {read : List Char} {gap : Gap}
    (h : Follows margin tail) (hgap : gap.hasBreak = true) :
    scanPlain false margin read gap line 0 tail =
      some ⟨read.reverse, .atNext line tail, true⟩ := by
  cases h with
  | done => simp [scanPlain, hgap]
  | line k c cs hk hs hb hc =>
    rw [Cursor.atNext_line line k hs]
    have hall : ∀ col gap, gap.hasBreak = true → col + k < margin →
        scanPlain false margin read gap line col (spaces k ++ c :: cs) =
          some ⟨read.reverse, ⟨c :: cs, line, col + k⟩, true⟩ := by
      clear hk hgap
      induction k with
      | zero => exact fun col gap hgap hk => scanPlain_stop hb hs hk hgap
      | succ k ih =>
        intro col gap hgap hk
        have hpush : (gap.pushBlank ' ').hasBreak = true := by
          cases gap <;> simp_all [Gap.hasBreak, Gap.pushBlank]
        rw [spaces_succ, List.cons_append, scanPlain_space, ih _ _ hpush (by omega)]
        congr 3; omega
    simpa using hall 0 gap hgap (by omega)

/-- A plain key is read up to its colon. -/
lemma scanPlain_key {margin col : ℕ} (line : ℕ) (h : allowsPlain cs = true) (hne : cs ≠ [])
    (hm : margin ≤ col + 1) (htail : endsToken tail = true) :
    scanPlain false margin [] (.blanks []) line col (cs ++ ':' :: tail) =
      some ⟨cs, ⟨':' :: tail, line, col + cs.length⟩, false⟩ := by
  rw [scanPlain_text h hne hm (by simp) (by simp), scanPlain_colon htail, List.reverse_reverse]

/-- A plain value is read with the line end and the indentation behind it. -/
lemma scanPlain_value {margin col : ℕ} (line : ℕ) (h : allowsPlain cs = true) (hne : cs ≠ [])
    (hm : margin ≤ col + 1) (htail : Follows margin tail) :
    scanPlain false margin [] (.blanks []) line col (cs ++ '\n' :: tail) =
      some ⟨cs, .atNext (line + 1) tail, true⟩ := by
  rw [scanPlain_text h hne hm (by simp) (by simp), scanPlain_break (by decide),
    scanPlain_follows htail rfl, List.reverse_reverse]

end BurnRate.Yaml
