import BurnRate.Proofs.ScalarLines
import BurnRate.Yaml.Token.Flow

/-!
Quoted scalars are read back character by character.

The scan is followed from the middle of a text: what was read so far and the gap behind it make up
what was written so far.
-/

namespace BurnRate.Yaml

variable {c d : Char} {cs tail : List Char}

/-! ### Single-quoted scalars -/

section

variable {single : Bool} {line col : ℕ} {read : List Char} {gap : Gap}

lemma isDocumentMark_of_ne (hdash : c ≠ '-') (hdot : c ≠ '.') (cs : List Char) :
    isDocumentMark (c :: cs) = false := by
  rcases cs with _ | ⟨a, _ | ⟨b, cs⟩⟩ <;> simp [isDocumentMark, startsWithMark, hdash, hdot]

/-- One step behind a gap. -/
lemma scanQuoted_between :
    scanQuoted single read line col (.between gap) (c :: cs) =
      if col == 0 && isDocumentMark (c :: cs) then none
      else if isBreak c then scanQuoted single read (line + 1) 0 (.between (gap.pushBreak c)) cs
      else if isSpacing c then
        scanQuoted single read line (col + 1) (.between (gap.pushBlank c)) cs
      else if single && c == '\'' then
        scanQuoted single (gap.folded ++ read) line (col + 1) .quote cs
      else if !single && c == '"' then some ((gap.folded ++ read).reverse, ⟨cs, line, col + 1⟩)
      else if !single && c == '\\' then
        scanQuoted single (gap.folded ++ read) line (col + 1) .escape cs
      else
        scanQuoted single (c :: (gap.folded ++ read)) line (col + 1) (.between (.blanks []))
          cs := by
  rw [scanQuoted]

lemma scanQuoted_break (h : isBreak c = true) :
    scanQuoted single read line col (.between gap) (c :: cs) =
      scanQuoted single read (line + 1) 0 (.between (gap.pushBreak c)) cs := by
  have hm : isDocumentMark (c :: cs) = false := by
    refine isDocumentMark_of_ne ?_ ?_ cs <;> rintro rfl <;> simp [isBreak] at h
  simp [scanQuoted_between, hm, h]

lemma scanQuoted_space :
    scanQuoted single read line col (.between gap) (' ' :: cs) =
      scanQuoted single read line (col + 1) (.between (gap.pushBlank ' ')) cs := by
  have hb : isBreak ' ' = false := by decide
  have hs : isSpacing ' ' = true := by decide
  simp [scanQuoted_between, isDocumentMark_of_ne, hb, hs]

lemma scanQuoted_spaces (k : ℕ) (h : gap.hasBreak = true) :
    scanQuoted single read line col (.between gap) (spaces k ++ tail) =
      scanQuoted single read line (col + k) (.between gap) tail := by
  induction k generalizing col with
  | zero => rfl
  | succ k ih =>
    have hpush : gap.pushBlank ' ' = gap := by cases gap <;> simp_all [Gap.hasBreak, Gap.pushBlank]
    rw [spaces_succ, List.cons_append, scanQuoted_space, hpush, ih, Nat.add_right_comm,
      Nat.add_assoc]

lemma scanQuoted_char (hb : isBreak c = false) (hs : isSpacing c = false) (hq : c ≠ '\'')
    (hcol : 0 < col) :
    scanQuoted true read line col (.between gap) (c :: cs) =
      scanQuoted true (c :: (gap.folded ++ read)) line (col + 1) (.between (.blanks [])) cs := by
  have h0 : (col == 0) = false := by simpa using (by omega : col ≠ 0)
  simp [scanQuoted_between, h0, hb, hs, hq]

lemma scanQuoted_quote :
    scanQuoted true read line col (.between gap) ('\'' :: cs) =
      scanQuoted true (gap.folded ++ read) line (col + 1) .quote cs := by
  have hb : isBreak '\'' = false := by decide
  have hs : isSpacing '\'' = false := by decide
  simp [scanQuoted_between, isDocumentMark_of_ne, hb, hs]

lemma scanQuoted_second :
    scanQuoted true read line col .quote ('\'' :: cs) =
      scanQuoted true ('\'' :: read) line (col + 1) (.between (.blanks [])) cs := by
  simp [scanQuoted]

lemma scanQuoted_closed (h : tail.head? ≠ some '\'') :
    scanQuoted true read line col .quote tail = some (read.reverse, ⟨tail, line, col⟩) := by
  cases tail with
  | nil => simp [scanQuoted]
  | cons c cs => simp_all [scanQuoted]

end

/-- A character as it is written between single quotes. -/
def quotedChar (c : Char) : List Char := if c = '\'' then ['\'', '\''] else [c]

/-- The body of a single-quoted scalar from behind a gap on. -/
def quotedRest (indent : ℕ) (gap : Gap) (cs : List Char) : List Char :=
  indentLines indent gap.hasBreak (cs.flatMap fun c => if c == '\'' then ['\'', '\''] else [c])
    ++ if endsLine gap.hasBreak cs then spaces indent else []

section

variable {indent line col : ℕ} {read : List Char} {gap : Gap}

lemma singleQuotedBody_eq (indent : ℕ) (cs : List Char) :
    singleQuotedBody indent cs = quotedRest indent (.blanks []) cs := by
  rw [singleQuotedBody, quotedRest, any_getLast?_eq]
  rfl

lemma quotedRest_nil : quotedRest indent gap [] = if gap.hasBreak then spaces indent else [] := by
  rw [quotedRest]
  rfl

lemma quotedRest_break (h : isBreak c = true) :
    quotedRest indent gap (c :: cs) = c :: quotedRest indent (gap.pushBreak c) cs := by
  have hq : c ≠ '\'' := by rintro rfl; simp [isBreak] at h
  have hg : (gap.pushBreak c).hasBreak = true := by cases gap <;> rfl
  rw [quotedRest, quotedRest, endsLine_cons]
  simp [indentLines, hq, h, hg]

lemma quotedRest_char (gap' : Gap) (h : isBreak c = false) (hg : gap'.hasBreak = false) :
    quotedRest indent gap (c :: cs) =
      (if gap.hasBreak then spaces indent else []) ++
        (quotedChar c ++ quotedRest indent gap' cs) := by
  rw [quotedRest, quotedRest, endsLine_cons, quotedChar]
  by_cases hc : c = '\''
  · subst hc
    simp [indentLines, h, hg]
  · simp [indentLines, h, hg, hc]

/-- A gap that may stand before the text: no space meets a break, and a line feed is not among the
breaks. -/
def Gap.Fits : Gap → List Char → Prop
  | blanks bs, cs => bs ≠ [] → ∀ c ∈ cs.head?, isBreak c = false
  | breaks (some d) _, cs => d ≠ '\n' ∧ cs.head? ≠ some ' '
  | breaks none _, _ => False

lemma Gap.Fits.pushBreak (h : gap.Fits (c :: cs)) (hb : isBreak c = true) (hn : c ≠ '\n')
    (hs : cs.head? ≠ some ' ') :
    (gap.pushBreak c).Fits cs ∧ (gap.pushBreak c).folded = c :: gap.folded := by
  rcases gap with bs | ⟨_ | d, more⟩
  · have : bs = [] := by
      by_contra hne
      have := h hne c rfl
      rw [hb] at this
      cases this
    subst this
    refine ⟨⟨hn, hs⟩, ?_⟩
    simp [Gap.pushBreak, Gap.folded, hn]
  · exact h.elim
  · refine ⟨⟨h.1, hs⟩, ?_⟩
    simp [Gap.pushBreak, Gap.folded, h.1]

lemma holdsPair_cons {p q : Char → Bool} (h : holdsPair p q (c :: cs) = false) :
    (p c = true → ∀ d ∈ cs.head?, q d = false) ∧ holdsPair p q cs = false := by
  cases cs with
  | nil => simp [holdsPair]
  | cons d cs =>
    simp only [holdsPair, Bool.or_eq_false_iff, Bool.and_eq_false_iff] at h
    refine ⟨fun hp e he => ?_, h.2⟩
    cases he
    rcases h.1 with h | h
    · rw [hp] at h; cases h
    · exact h

/-- The indentation of a line is skipped. -/
lemma scanQuoted_indent (gap : Gap) (r : List Char) :
    scanQuoted true read line col (.between gap)
        ((if gap.hasBreak then spaces indent else []) ++ r) =
      scanQuoted true read line (if gap.hasBreak then col + indent else col) (.between gap) r := by
  by_cases hg : gap.hasBreak = true
  · rw [if_pos hg, if_pos hg, scanQuoted_spaces _ hg]
  · rw [if_neg hg, if_neg hg, List.nil_append]

lemma scanQuoted_quotedChar (hb : isBreak c = false) (hs : isSpacing c = false) (hcol : 0 < col)
    (r : List Char) :
    scanQuoted true read line col (.between gap) (quotedChar c ++ r) =
      scanQuoted true (c :: (gap.folded ++ read)) line (col + (quotedChar c).length)
        (.between (.blanks [])) r := by
  by_cases hq : c = '\''
  · subst hq
    have hchar : quotedChar '\'' = ['\'', '\''] := rfl
    rw [hchar, List.cons_append, scanQuoted_quote, List.singleton_append, scanQuoted_second]
    rfl
  · rw [quotedChar, if_neg hq, List.singleton_append, scanQuoted_char hb hs hq hcol]
    rfl

/-- What is known behind a gap in a single-quoted scalar, before the text that is left of it. -/
structure QuotedAt (gap : Gap) (col : ℕ) (cs : List Char) : Prop where
  printable : ∀ c ∈ cs, isPrintable c = true
  noLineFeed : '\n' ∉ cs
  spaceBreak : holdsPair isSpace isBreak cs = false
  breakSpace : holdsPair isBreak isSpace cs = false
  fits : gap.Fits cs
  inLine : gap.hasBreak = false → 0 < col

/-- A text is written between single quotes only where it can be read back. -/
lemma QuotedAt.start (h : Style.choose cs = .singleQuoted) (hcol : 0 < col) :
    QuotedAt (.blanks []) col cs := by
  obtain ⟨hn, hp, hsb, hbs⟩ := choose_singleQuoted h
  exact ⟨hp, hn, hsb, hbs, by simp [Gap.Fits], fun _ => hcol⟩

lemma QuotedAt.next {gap' : Gap} {col' : ℕ} (h : QuotedAt gap col (c :: cs)) (hfits : gap'.Fits cs)
    (hcol : gap'.hasBreak = false → 0 < col') : QuotedAt gap' col' cs where
  printable := fun d hd => h.printable d (List.mem_cons_of_mem c hd)
  noLineFeed := fun hn => h.noLineFeed (List.mem_cons_of_mem c hn)
  spaceBreak := (holdsPair_cons h.spaceBreak).2
  breakSpace := (holdsPair_cons h.breakSpace).2
  fits := hfits
  inLine := hcol

/-- One character of a single-quoted scalar is read: it joins the gap or what was read so far. -/
lemma scanQuoted_step (hi : 0 < indent) (line : ℕ) (read r : List Char)
    (h : QuotedAt gap col (c :: cs)) :
    ∃ line' col' read' gap', line ≤ line' ∧ QuotedAt gap' col' cs ∧
      gap'.folded ++ read' = c :: (gap.folded ++ read) ∧
      (isBreak c = false → gap.hasBreak = false → gap'.hasBreak = false ∧ line' = line ∧
        col' + (quotedRest indent gap' cs).length =
          col + (quotedRest indent gap (c :: cs)).length) ∧
      scanQuoted true read line col (.between gap) (quotedRest indent gap (c :: cs) ++ r) =
        scanQuoted true read' line' col' (.between gap') (quotedRest indent gap' cs ++ r) := by
  by_cases hb : isBreak c = true
  · have hs : cs.head? ≠ some ' ' := fun hs =>
      absurd ((holdsPair_cons h.breakSpace).1 hb ' ' hs) (by decide)
    have hn : c ≠ '\n' := fun hn => h.noLineFeed (by simp [hn])
    obtain ⟨hfits, hfolded⟩ := h.fits.pushBreak hb hn hs
    have hg : (gap.pushBreak c).hasBreak = true := by cases gap <;> rfl
    refine ⟨line + 1, 0, read, gap.pushBreak c, Nat.le_succ _, h.next hfits (by simp [hg]), ?_,
      fun hc => ?_, ?_⟩
    · rw [hfolded, List.cons_append]
    · rw [hb] at hc
      cases hc
    · rw [quotedRest_break hb, List.cons_append, scanQuoted_break hb]
  rw [Bool.not_eq_true] at hb
  by_cases hs : c = ' '
  · -- the gap has no break, or else it would not fit
    subst hs
    rcases gap with bs | ⟨_ | d, more⟩
    · have hfits : (Gap.blanks (' ' :: bs)).Fits cs := fun _ =>
        (holdsPair_cons h.spaceBreak).1 (by decide)
      have hchar := @quotedRest_char ' ' cs indent (.blanks bs) (.blanks (' ' :: bs)) hb rfl
      have hspace : quotedChar ' ' = [' '] := rfl
      rw [if_neg (by simp [Gap.hasBreak]), List.nil_append, hspace, List.singleton_append] at hchar
      refine ⟨line, col + 1, read, .blanks (' ' :: bs), Nat.le_refl _, h.next hfits (by simp), rfl,
        fun _ _ => ⟨rfl, rfl, ?_⟩, ?_⟩
      · rw [hchar, List.length_cons]
        omega
      · rw [hchar, List.cons_append, scanQuoted_space, Gap.pushBlank]
    · exact h.fits.elim
    · exact absurd rfl h.fits.2
  · have hsp : isSpacing c = false := by
      rw [isSpacing_of_printable (h.printable c (by simp))]
      simpa [isSpace] using hs
    have hpos : 0 < if gap.hasBreak then col + indent else col := by
      split
      · omega
      · next hg => exact h.inLine (by simpa using hg)
    have hchar := @quotedRest_char c cs indent gap (.blanks []) hb rfl
    refine ⟨line, (if gap.hasBreak then col + indent else col) + (quotedChar c).length,
      c :: (gap.folded ++ read), .blanks [], Nat.le_refl _, h.next (by simp [Gap.Fits])
      (fun _ => by omega), rfl, fun _ hg => ⟨rfl, rfl, ?_⟩, ?_⟩
    · rw [hchar, hg]
      simp [Nat.add_assoc]
    · rw [hchar, List.append_assoc, List.append_assoc, scanQuoted_indent,
        scanQuoted_quotedChar hb hsp hpos]

/-- A single-quoted scalar from behind a gap on: it is read to its end, on the same line if it has
no breaks. -/
lemma scanQuoted_rest (hi : 0 < indent) (line : ℕ) (read : List Char) (h : QuotedAt gap col cs)
    (htail : tail.head? ≠ some '\'') :
    ∃ line' col', line ≤ line' ∧
      ((∀ c ∈ cs, isBreak c = false) → gap.hasBreak = false →
        line' = line ∧ col' = col + (quotedRest indent gap cs).length + 1) ∧
      scanQuoted true read line col (.between gap) (quotedRest indent gap cs ++ '\'' :: tail) =
        some ((gap.folded ++ read).reverse ++ cs, ⟨tail, line', col'⟩) := by
  induction cs generalizing read gap line col with
  | nil =>
    rw [quotedRest_nil, scanQuoted_indent, scanQuoted_quote, scanQuoted_closed htail]
    refine ⟨line, (if gap.hasBreak then col + indent else col) + 1, Nat.le_refl _,
      fun _ hg => ⟨rfl, ?_⟩, ?_⟩
    · simp [hg]
    · rw [List.append_nil]
  | cons c cs ih =>
    obtain ⟨line₁, col₁, read₁, gap₁, hline₁, h₁, hread, hend₁, hstep⟩ :=
      scanQuoted_step hi line read ('\'' :: tail) h
    obtain ⟨line', col', hline, hend, hscan⟩ := ih line₁ read₁ h₁
    refine ⟨line', col', Nat.le_trans hline₁ hline, fun hcs hg => ?_, ?_⟩
    · obtain ⟨hc, hcs⟩ := List.forall_mem_cons.1 hcs
      obtain ⟨hg₁, rfl, hcol⟩ := hend₁ hc hg
      obtain ⟨rfl, rfl⟩ := hend hcs hg₁
      exact ⟨rfl, congrArg (· + 1) hcol⟩
    · rw [hstep, hscan, hread]
      simp

end

/-! ### Double-quoted scalars -/

/-- The number that hexadecimal digits continue. -/
def hexRun (value : ℕ) (ds : List Char) : Option ℕ :=
  ds.foldlM (fun n c => (hexValue? c).map (16 * n + ·)) value

/-- The text is an escape that stands for the character. -/
def isEscapeOf (c : Char) : List Char → Bool
  | '\\' :: e :: ds =>
    !isBreak e &&
      match escapeWidth? e with
      | none => ds.isEmpty && escaped? e == some c
      | some w => ds.length == w && (hexRun 0 ds).bind charOf? == some c
  | _ => false

/-- The characters that may not be written as they are. -/
lemma toNat_of_not_printable (h : isPrintable c = false) :
    c.toNat < 160 ∨ c.toNat = 0xfeff ∨ c.toNat = 0xfffe ∨ c.toNat = 0xffff := by
  have hv : c.toNat < 0xd800 ∨ (0xdfff < c.toNat ∧ c.toNat < 0x110000) := c.valid
  simp only [isPrintable, Bool.or_eq_false_iff, Bool.and_eq_false_iff, decide_eq_false_iff_not,
    bne_eq_false_iff_eq, beq_eq_false_iff_ne] at h
  omega

lemma isEscapeOf_small : ∀ n < 160, isPrintable (Char.ofNat n) = true ∨
    isEscapeOf (Char.ofNat n) (escapeChar (Char.ofNat n)) = true ∧
      (escapeChar (Char.ofNat n)).length ≤ 6 ∧
      (escapeChar (Char.ofNat n)).all isPrintable = true := by
  decide +kernel

/-- Between double quotes a character stands for itself or is escaped, in at most six printable
characters. -/
lemma escapeChar_cases (c : Char) :
    (escapeChar c = [c] ∧ isPrintable c = true ∧ c ≠ '"' ∧ c ≠ '\\' ∧ isBreak c = false) ∨
      isEscapeOf c (escapeChar c) = true ∧ (escapeChar c).length ≤ 6 ∧
        (escapeChar c).all isPrintable = true := by
  by_cases hp : isPrintable c = true
  · by_cases hs : c = '"' ∨ c = '\\' ∨ c = '\n' ∨ c = '\u2028' ∨ c = '\u2029'
    · right
      rcases hs with rfl | rfl | rfl | rfl | rfl <;> decide
    · left
      simp only [not_or] at hs
      obtain ⟨hq, hback, hn, hls, hps⟩ := hs
      have hne : ∀ d, isPrintable d = false → c ≠ d := fun d hd => ne_of_printable hp hd
      refine ⟨?_, hp, hq, hback, ?_⟩
      · unfold escapeChar
        split <;> first
          | exact absurd rfl hq
          | exact absurd rfl hback
          | exact absurd rfl hn
          | exact absurd rfl hls
          | exact absurd rfl hps
          | exact absurd rfl (hne _ (by decide))
          | simp [hp]
      · simp [isBreak, hn, hls, hps, hne '\r' (by decide), hne '\x85' (by decide)]
  · right
    rw [Bool.not_eq_true] at hp
    have hc : Char.ofNat c.toNat = c := Char.ofNat_toNat c
    rcases toNat_of_not_printable hp with h | h | h | h
    · rcases isEscapeOf_small c.toNat h with h' | h' <;> rw [hc] at h'
      · rw [hp] at h'; cases h'
      · exact h'
    all_goals
      rw [h] at hc
      subst hc
      decide

section

variable {line col : ℕ} {read bs : List Char}

lemma scanQuoted_number {single : Bool} {value v : ℕ} {e : Char} (line col : ℕ)
    (read tail ds : List Char) (hne : ds ≠ [])
    (hv : hexRun value ds = some v) (he : charOf? v = some e) :
    scanQuoted single read line col (.number ds.length value) (ds ++ tail) =
      scanQuoted single (e :: read) line (col + ds.length) (.between (.blanks [])) tail := by
  induction ds generalizing value col with
  | nil => exact absurd rfl hne
  | cons a ds ih =>
    cases ha : hexValue? a with
    | none => simp [hexRun, ha] at hv
    | some x =>
      have hv' : hexRun (16 * value + x) ds = some v := by simpa [hexRun, ha] using hv
      rcases ds with _ | ⟨b, ds⟩
      · have : 16 * value + x = v := by simpa [hexRun] using hv'
        simp [scanQuoted, ha, this, he]
      · have := ih (col + 1) (by simp) hv'
        rw [List.cons_append, scanQuoted]
        simp only [ha, List.length_cons, Nat.add_sub_cancel] at this ⊢
        rw [if_neg (by omega), this]
        congr 1; omega

/-- A backslash starts an escape. -/
lemma scanQuoted_backslash (hcol : 0 < col) (cs : List Char) :
    scanQuoted false read line col (.between (.blanks bs)) ('\\' :: cs) =
      scanQuoted false (bs ++ read) line (col + 1) .escape cs := by
  have h0 : (col == 0) = false := by simpa using (by omega : col ≠ 0)
  have hb : isBreak '\\' = false := by decide
  have hs : isSpacing '\\' = false := by decide
  simp [scanQuoted_between, h0, hb, hs, Gap.folded]

/-- An escape is read as what it stands for. -/
lemma scanQuoted_escape {s : List Char} (h : isEscapeOf c s = true) (hcol : 0 < col)
    (tail : List Char) :
    scanQuoted false read line col (.between (.blanks bs)) (s ++ tail) =
      scanQuoted false (c :: (bs ++ read)) line (col + s.length) (.between (.blanks [])) tail := by
  unfold isEscapeOf at h
  split at h
  · next e ds =>
    simp only [Bool.and_eq_true, Bool.not_eq_true'] at h
    obtain ⟨hb, h⟩ := h
    rw [List.cons_append, List.cons_append, scanQuoted_backslash hcol, scanQuoted]
    cases hw : escapeWidth? e with
    | none =>
      simp only [hw, Bool.and_eq_true, List.isEmpty_iff, beq_iff_eq] at h
      obtain ⟨rfl, hescaped⟩ := h
      simp [hb, hescaped]
    | some w =>
      simp only [hw, Bool.and_eq_true, beq_iff_eq] at h
      obtain ⟨rfl, hrun⟩ := h
      obtain ⟨v, hv, hc⟩ := Option.bind_eq_some_iff.1 hrun
      have hne : ds ≠ [] := by
        rintro rfl
        have : escapeWidth? e ≠ some 0 := by unfold escapeWidth?; split <;> simp
        exact this hw
      have hcol' : col + 1 + 1 + ds.length = col + ('\\' :: e :: ds).length := by
        simp only [List.length_cons]
        omega
      simp only [hb, Bool.false_eq_true, if_false]
      rw [scanQuoted_number _ _ _ _ _ hne hv hc, hcol']
  · cases h

/-- A character between double quotes joins what was read so far. -/
lemma scanQuoted_escapeChar (line : ℕ) (c : Char) (read bs tail : List Char) (hcol : 0 < col) :
    ∃ read' bs', bs' ++ read' = c :: (bs ++ read) ∧
      scanQuoted false read line col (.between (.blanks bs)) (escapeChar c ++ tail) =
        scanQuoted false read' line (col + (escapeChar c).length) (.between (.blanks bs'))
          tail := by
  rcases escapeChar_cases c with ⟨he, hp, hq, hback, hb⟩ | ⟨he, -⟩
  · rw [he]
    by_cases hs : c = ' '
    · subst hs
      exact ⟨read, ' ' :: bs, rfl, scanQuoted_space⟩
    · have h0 : (col == 0) = false := by simpa using (by omega : col ≠ 0)
      have hsp : isSpacing c = false := by
        rw [isSpacing_of_printable hp]
        simpa [isSpace] using hs
      refine ⟨c :: (bs ++ read), [], rfl, ?_⟩
      simp [scanQuoted_between, h0, hb, hsp, hq, hback, Gap.folded]
  · exact ⟨c :: (bs ++ read), [], rfl, scanQuoted_escape he hcol tail⟩

/-- A double-quoted scalar is read to its end, on the same line. -/
lemma scanQuoted_escaped (line : ℕ) (read bs cs tail : List Char) (hcol : 0 < col) :
    scanQuoted false read line col (.between (.blanks bs)) (cs.flatMap escapeChar ++ '"' :: tail) =
      some ((bs ++ read).reverse ++ cs,
        ⟨tail, line, col + (cs.flatMap escapeChar).length + 1⟩) := by
  induction cs generalizing read bs col with
  | nil =>
    have h0 : (col == 0) = false := by simpa using (by omega : col ≠ 0)
    have hb : isBreak '"' = false := by decide
    have hs : isSpacing '"' = false := by decide
    simp [scanQuoted_between, h0, hb, hs, Gap.folded]
  | cons c cs ih =>
    obtain ⟨read', bs', hread, hscan⟩ :=
      scanQuoted_escapeChar line c read bs (cs.flatMap escapeChar ++ '"' :: tail) hcol
    rw [List.flatMap_cons, List.append_assoc, hscan, ih read' bs' (by omega), hread]
    simp [Nat.add_assoc]

end

end BurnRate.Yaml
