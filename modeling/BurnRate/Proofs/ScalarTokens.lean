import BurnRate.Proofs.TokenReading

/-!
A scalar is read back as one token, in whatever style it was written.

As a key it stands in front of a colon on the same line, as a value it ends its line.
-/

namespace BurnRate.Yaml

variable {c : Char} {cs : List Char}

/-! ### Keys are short -/

lemma length_le_utf8ByteSize (cs : List Char) : cs.length ≤ (String.ofList cs).utf8ByteSize := by
  rw [← String.size_toByteArray, String.toByteArray_ofList]
  induction cs with
  | nil => exact Nat.zero_le _
  | cons c cs ih =>
    have hc : 0 < c.utf8Size := c.utf8Size_pos
    rw [List.utf8Encode_cons, ByteArray.size_append, List.utf8Encode_singleton,
      List.size_toByteArray, String.length_utf8EncodeChar, List.length_cons]
    omega

lemma isSimpleKey_iff : isSimpleKey cs = true ↔
    (∀ c ∈ cs, isBreak c = false) ∧ (String.ofList cs).utf8ByteSize ≤ 128 := by
  simp [isSimpleKey]

lemma length_flatMap_le {f : Char → List Char} {n : ℕ} (hf : ∀ c, (f c).length ≤ n)
    (cs : List Char) : (cs.flatMap f).length ≤ n * cs.length := by
  induction cs with
  | nil => simp
  | cons c cs ih =>
    have := hf c
    rw [List.flatMap_cons, List.length_append, List.length_cons, Nat.mul_succ]
    omega

lemma length_escapeChar_le (c : Char) : (escapeChar c).length ≤ 6 := by
  rcases escapeChar_cases c with ⟨h, -⟩ | ⟨-, h, -⟩
  · simp [h]
  · exact h

lemma endsLine_of_no_break (h : ∀ c ∈ cs, isBreak c = false) : endsLine false cs = false := by
  rw [endsLine]
  cases hl : cs.getLast? with
  | none => rfl
  | some d => exact h d (List.mem_of_getLast? hl)

lemma indentLines_of_no_break {indent : ℕ} (h : ∀ c ∈ cs, isBreak c = false) :
    indentLines indent false cs = cs := by
  induction cs with
  | nil => rfl
  | cons c cs ih =>
    rw [indentLines, if_neg (by simp [h c]), ih fun d hd => h d (by simp [hd])]
    rfl

lemma length_quotedRest_le (indent : ℕ) (h : ∀ c ∈ cs, isBreak c = false) :
    (quotedRest indent (.blanks []) cs).length ≤ 2 * cs.length := by
  have hquoted : ∀ c ∈ cs.flatMap (fun c => if c == '\'' then ['\'', '\''] else [c]),
      isBreak c = false := by
    intro c hc
    obtain ⟨d, hd, hc⟩ := List.mem_flatMap.1 hc
    split at hc
    · next hq => simp_all
    · next hq => simp_all
  rw [quotedRest, Gap.hasBreak, indentLines_of_no_break hquoted, endsLine_of_no_break h]
  simpa using length_flatMap_le (n := 2) (fun c => by split <;> simp) cs

namespace Token

open LexState

variable {tail : List Char} {line col : ℕ} {ts : List Token} {is : List ℕ} {a : Bool}
  {k? : Option Candidate}

/-- The token of a text. -/
def ofScalar (cs : List Char) : Token := .scalar (Style.choose cs == .plain) (String.ofList cs)

/-- The candidate that is noted at a node, if a key may start there. -/
def candidateAt (a : Bool) (ts : List Token) (line col : ℕ) (is : List ℕ) : Option Candidate :=
  if a then some ⟨ts.length, line, col, is.head? == some col⟩ else none

/-- The candidate was left behind on an earlier line. -/
def Stale (line : ℕ) (k? : Option Candidate) : Prop :=
  ∀ k ∈ k?, k.isRequired = false ∧ k.line < line

lemma Stale.none : Stale line none := by
  intro k hk
  cases hk

lemma Stale.not_required (h : Stale line k?) : k?.any (·.isRequired) = false := by
  cases k? with
  | none => rfl
  | some k => exact (h k rfl).1

lemma Stale.candidateAt {line' : ℕ} (hl : line < line') (hi : is.head? ≠ some col) :
    Stale line' (candidateAt a ts line col is) := by
  intro k hk
  cases a with
  | false => cases hk
  | true =>
    cases hk
    exact ⟨by simpa using hi, hl⟩

lemma noteCandidate?_inBlock (hk : k?.any (·.isRequired) = false) (ha : a = false → k? = none) :
    (inBlock ⟨cs, line, col⟩ ts is a k?).noteCandidate? =
      some (inBlock ⟨cs, line, col⟩ ts is a (candidateAt a ts line col is)) := by
  cases a with
  | false => simp [noteCandidate?, inBlock, candidateAt, ha rfl]
  | true => simp [noteCandidate?, inBlock, dropCandidate?, hk, inFlow, candidateAt]

/-! ### Which token starts -/

lemma startsWithMark_of_ne {m : Char} (h : c ≠ m) : startsWithMark m (c :: cs) = false := by
  rcases cs with _ | ⟨a, _ | ⟨b, cs⟩⟩ <;> simp [startsWithMark, h]

lemma isReserved_of_not_isIndicator (h : isIndicator c = false)
    (hc : ¬ (c = '?' ∨ c = ':' ∨ c = '-')) : isReserved c = false := by
  simp only [isIndicator, isReserved] at h ⊢
  simp_all

lemma step?_plain (h : allowsPlain cs = true) (hne : cs ≠ []) (hdash : tail.head? ≠ some '-')
    (hdot : tail.head? ≠ some '.') :
    step? (inBlock ⟨cs ++ tail, line, col⟩ ts is a k?) =
      (inBlock ⟨cs ++ tail, line, col⟩ ts is a k?).plainScalar? := by
  obtain ⟨hp, -, hb, hstart, -, hhead, -⟩ := allowsPlain_iff.1 h
  have hmark := isDocumentMark_append hstart hdash hdot
  obtain ⟨c, cs, rfl⟩ := List.exists_cons_of_ne_nil hne
  obtain ⟨hi, hword⟩ := startsWithIndicator_cons hstart
  have hs : isSpacing c = false := by
    rw [isSpacing_of_printable (hp c (by simp))]
    simpa [isSpace] using hhead
  rw [isDocumentMark, Bool.or_eq_false_iff, List.cons_append] at hmark
  have hne : ∀ d, isIndicator d = true → c ≠ d := by
    rintro d hd rfl
    rw [hi] at hd
    cases hd
  have hends : c = '?' ∨ c = ':' ∨ c = '-' → endsToken (cs ++ tail) = false := fun hc =>
    endsToken_append (hword hc) tail
  by_cases hc : c = '?' ∨ c = ':' ∨ c = '-'
  · rcases hc with rfl | rfl | rfl <;>
      simp [step?, inBlock, inFlow, hmark.1, hmark.2, hends]
  · have hr := isReserved_of_not_isIndicator hi hc
    simp only [not_or] at hc
    simp [step?, inBlock, inFlow, hmark.1, hmark.2, hs, hr, hc,
      hne '%' rfl, hne '[' rfl, hne ']' rfl, hne '\x7b' rfl, hne '\x7d' rfl, hne ',' rfl,
      hne '*' rfl, hne '&' rfl, hne '!' rfl, hne '|' rfl, hne '>' rfl, hne '\'' rfl, hne '"' rfl]

lemma step?_quoted (single : Bool) :
    step? (inBlock ⟨(if single then '\'' else '"') :: cs, line, col⟩ ts is a k?) =
      (inBlock ⟨(if single then '\'' else '"') :: cs, line, col⟩ ts is a k?).quotedScalar?
        single := by
  cases single <;> simp [step?, inBlock, inFlow, startsWithMark_of_ne]

lemma step?_bar :
    step? (inBlock ⟨'|' :: cs, line, col⟩ ts is a k?) =
      (inBlock ⟨'|' :: cs, line, col⟩ ts is a k?).blockScalar? true := by
  simp [step?, inBlock, inFlow, startsWithMark_of_ne]

/-! ### Scalars of each style -/

lemma plainScalar?_inBlock {r : PlainScan} (ts : List Token) (hk : k?.any (·.isRequired) = false)
    (ha : a = false → k? = none)
    (h : scanPlain false (marginOf is) [] (.blanks []) line col cs = some r) :
    (inBlock ⟨cs, line, col⟩ ts is a k?).plainScalar? =
      some (inBlock r.ended (ts ++ [.scalar true (String.ofList r.text)]) is r.newLine
        (candidateAt a ts line col is)) := by
  rw [plainScalar?, noteCandidate?_inBlock hk ha]
  simp only [Option.bind_eq_bind, Option.bind_some]
  rw [margin_inBlock]
  simp only [inBlock, inFlow, List.isEmpty_nil, Bool.not_true, h]
  simp [push]

lemma quotedScalar?_inBlock {single : Bool} {text : List Char} {ended : Cursor} (c : Char)
    (ts : List Token) (is : List ℕ) (hk : k?.any (·.isRequired) = false)
    (ha : a = false → k? = none)
    (h : scanQuoted single [] line (col + 1) (.between (.blanks [])) cs = some (text, ended)) :
    (inBlock ⟨c :: cs, line, col⟩ ts is a k?).quotedScalar? single =
      some (inBlock ended (ts ++ [.scalar false (String.ofList text)]) is false
        (candidateAt a ts line col is)) := by
  rw [quotedScalar?, noteCandidate?_inBlock hk ha]
  simp [inBlock, Cursor.advance, h, push]

lemma blockScalar?_inBlock {text : List Char} {ended : Cursor} {p : ℕ}
    (h : scanBlockScalar true (p + 1) ⟨cs, line, col + 1⟩ = some (text, ended)) :
    (inBlock ⟨c :: cs, line, col⟩ ts (p :: is) a none).blockScalar? true =
      some (inBlock ended (ts ++ [.scalar false (String.ofList text)]) (p :: is) true none) := by
  simp [blockScalar?, dropCandidate?, inBlock, margin, Cursor.advance, h, push]

/-- A token at the cursor is read. -/
lemma Reads.token {s' t : LexState} (hs : isSpacing c = false) (hb : isBreak c = false)
    (hc : c ≠ '#') (hm : marginOf is ≤ col + 1)
    (hstep : (inBlock ⟨c :: cs, line, col⟩ ts is a k?).step? = some s') (hskip : s'.skip = t.skip)
    (hlen : t.cursor.rest.length ≤ cs.length) :
    Reads (inBlock ⟨c :: cs, line, col⟩ ts is a k?) t := by
  refine .step ?_ ?_ hskip (Nat.lt_succ_of_le hlen)
  · rw [skip_token hs hb hc hm]
    exact List.cons_ne_nil c cs
  · rw [skip_token hs hb hc hm]
    exact hstep

lemma allowsPlain_head (h : allowsPlain (c :: cs) = true) :
    isSpacing c = false ∧ isBreak c = false ∧ c ≠ '#' := by
  obtain ⟨hp, -, hb, hstart, -, hhead, -⟩ := allowsPlain_iff.1 h
  refine ⟨?_, hb c (by simp), ?_⟩
  · rw [isSpacing_of_printable (hp c (by simp))]
    simpa [isSpace] using hhead
  · rintro rfl
    have := (startsWithIndicator_cons hstart).1
    cases this

/-- A plain scalar is read, whatever the scan of it gives. -/
lemma reads_plain {r : PlainScan} {t : LexState} (h : allowsPlain cs = true) (hne : cs ≠ [])
    (hdash : tail.head? ≠ some '-') (hdot : tail.head? ≠ some '.') (hm : marginOf is ≤ col + 1)
    (hk : k?.any (·.isRequired) = false) (ha : a = false → k? = none)
    (hscan : scanPlain false (marginOf is) [] (.blanks []) line col (cs ++ tail) = some r)
    (hskip : (inBlock r.ended (ts ++ [.scalar true (String.ofList r.text)]) is r.newLine
      (candidateAt a ts line col is)).skip = t.skip)
    (hlen : t.cursor.rest.length ≤ tail.length) :
    Reads (inBlock ⟨cs ++ tail, line, col⟩ ts is a k?) t := by
  have hstep := (step?_plain h hne hdash hdot).trans (plainScalar?_inBlock ts hk ha hscan)
  obtain ⟨c, cs, rfl⟩ := List.exists_cons_of_ne_nil hne
  obtain ⟨hs, hb, hc⟩ := allowsPlain_head h
  refine .token hs hb hc hm hstep hskip ?_
  simp
  omega

/-- A quoted scalar is read, whatever the scan of it gives. -/
lemma reads_quoted {text : List Char} {ended : Cursor} {t : LexState} (single : Bool)
    (hm : marginOf is ≤ col + 1) (hk : k?.any (·.isRequired) = false) (ha : a = false → k? = none)
    (hscan : scanQuoted single [] line (col + 1) (.between (.blanks [])) cs = some (text, ended))
    (hskip : (inBlock ended (ts ++ [.scalar false (String.ofList text)]) is false
      (candidateAt a ts line col is)).skip = t.skip)
    (hlen : t.cursor.rest.length ≤ cs.length) :
    Reads (inBlock ⟨(if single then '\'' else '"') :: cs, line, col⟩ ts is a k?) t := by
  have hquoted := quotedScalar?_inBlock (if single then '\'' else '"') ts is hk ha hscan
  have hstep := (step?_quoted single).trans hquoted
  cases single with
  | false => exact .token (by decide) (by decide) (by decide) hm hstep hskip hlen
  | true => exact .token (by decide) (by decide) (by decide) hm hstep hskip hlen

/-- A key on one line is read up to its colon. -/
lemma reads_key {indent : ℕ} (h : isSimpleKey cs = true) (hi : 0 < indent)
    (hm : marginOf is ≤ col + 1) (htail : endsToken tail = true)
    (hk : k?.any (·.isRequired) = false) :
    ∃ col', col ≤ col' ∧ col' ≤ col + maxKeyLength ∧
      Reads (inBlock ⟨writeScalar indent cs ++ ':' :: tail, line, col⟩ ts is true k?)
        (inBlock ⟨':' :: tail, line, col'⟩ (ts ++ [ofScalar cs]) is false
          (candidateAt true ts line col is)) := by
  obtain ⟨hb, hsize⟩ := isSimpleKey_iff.1 h
  have hlen := length_le_utf8ByteSize cs
  have hbound : maxKeyLength = 1024 := rfl
  rw [ofScalar, writeScalar]
  cases hstyle : Style.choose cs with
  | plain =>
    obtain ⟨hallows, hplain⟩ := choose_plain hstyle
    have hne := ne_nil_of_isPlainText hplain
    have hscan := scanPlain_key line hallows hne hm htail
    exact ⟨_, Nat.le_add_right col _, by omega,
      reads_plain hallows hne (by simp) (by simp) hm hk (by simp) hscan rfl (Nat.le_refl _)⟩
  | singleQuoted =>
    have hquotedAt : QuotedAt (.blanks []) (col + 1) cs := .start hstyle (Nat.succ_pos col)
    obtain ⟨line', col', -, hend, hscan⟩ :=
      @scanQuoted_rest cs (':' :: tail) _ _ _ hi line [] hquotedAt (by simp)
    obtain ⟨hline, hcol⟩ := hend hb rfl
    have hquoted := length_quotedRest_le indent hb
    rw [hline] at hscan
    refine ⟨col', by omega, by omega, ?_⟩
    simp only [singleQuotedBody_eq, List.cons_append, List.append_assoc, List.nil_append]
    exact reads_quoted true hm hk (by simp) hscan rfl (by simp [inBlock]; omega)
  | doubleQuoted =>
    have hquoted := length_flatMap_le length_escapeChar_le cs
    have hscan := scanQuoted_escaped line [] [] cs (':' :: tail) (Nat.succ_pos col)
    refine ⟨col + 1 + (cs.flatMap escapeChar).length + 1, by omega, by omega, ?_⟩
    simp only [List.cons_append, List.append_assoc, List.nil_append]
    exact reads_quoted false hm hk (by simp) hscan rfl (by simp [inBlock]; omega)
  | literal =>
    have := hb '\n' (choose_literal hstyle).1
    cases this

/-- A value is read with the line end behind it. -/
lemma reads_value {p : ℕ} (cs : List Char) (ts : List Token) (is : List ℕ) (a : Bool) (line : ℕ)
    (hp : p < col) (htail : Follows (p + 1) tail) :
    ∃ line' k?, Stale line' k? ∧
      Reads (inBlock ⟨endLine (writeScalar (p + 2) cs) ++ tail, line, col⟩ ts (p :: is) a none)
        (atLine tail line' (ts ++ [ofScalar cs]) (p :: is) k?) := by
  have hm : marginOf (p :: is) ≤ col + 1 := by
    rw [marginOf]
    omega
  have hstale : ∀ line', line < line' → Stale line' (candidateAt a ts line col (p :: is)) :=
    fun line' hl => .candidateAt hl (by simp; omega)
  rw [ofScalar, writeScalar]
  cases hstyle : Style.choose cs with
  | plain =>
    obtain ⟨hallows, hplain⟩ := choose_plain hstyle
    have hne := ne_nil_of_isPlainText hplain
    have hscan := scanPlain_value line hallows hne hm htail
    have hends : endsLine false cs = false := endsLine_of_no_break (allowsPlain_iff.1 hallows).2.2.1
    refine ⟨line + 1, _, hstale _ (Nat.lt_succ_self _), ?_⟩
    simp only [endLine_eq, hends, Bool.false_eq_true, if_false, List.append_assoc, List.cons_append,
      List.nil_append]
    exact reads_plain hallows hne (by simp) (by simp) hm rfl (fun _ => rfl) hscan
      (skip_atNext htail) (Nat.le_succ _)
  | singleQuoted =>
    have hquotedAt : QuotedAt (.blanks []) (col + 1) cs := .start hstyle (Nat.succ_pos col)
    obtain ⟨line', col', hl, -, hscan⟩ :=
      @scanQuoted_rest cs ('\n' :: tail) _ _ _ (Nat.succ_pos (p + 1)) line [] hquotedAt (by simp)
    refine ⟨line' + 1, _, hstale _ (by omega), ?_⟩
    have hend : endLine ('\'' :: singleQuotedBody (p + 2) cs ++ ['\'']) =
        '\'' :: singleQuotedBody (p + 2) cs ++ ['\'', '\n'] :=
      endLine_concat (by decide) ('\'' :: singleQuotedBody (p + 2) cs)
    dsimp only
    rw [hend]
    simp only [singleQuotedBody_eq, List.cons_append, List.append_assoc, List.nil_append]
    exact reads_quoted true hm rfl (fun _ => rfl) hscan skip_break
      (by simp [atLine, inBlock]; omega)
  | doubleQuoted =>
    have hscan := scanQuoted_escaped line [] [] cs ('\n' :: tail) (Nat.succ_pos col)
    refine ⟨line + 1, _, hstale _ (Nat.lt_succ_self _), ?_⟩
    have hend : endLine ('"' :: cs.flatMap escapeChar ++ ['"']) =
        '"' :: cs.flatMap escapeChar ++ ['"', '\n'] :=
      endLine_concat (by decide) ('"' :: cs.flatMap escapeChar)
    dsimp only
    rw [hend]
    simp only [List.cons_append, List.append_assoc, List.nil_append]
    exact reads_quoted false hm rfl (fun _ => rfl) hscan skip_break
      (by simp [atLine, inBlock]; omega)
  | literal =>
    obtain ⟨hn, hp⟩ := choose_literal hstyle
    have hne : cs ≠ [] := List.ne_nil_of_mem hn
    obtain ⟨line', -, hscan⟩ := scanBlockScalar_literal line (col + 1) hp hne htail
    refine ⟨line', none, .none, ?_⟩
    have hend : endLine ('|' :: literalMarks cs ++ '\n' :: indentLines (p + 2) true cs) ++ tail =
        '|' :: (literalMarks cs ++ '\n' :: (indentLines (p + 2) true cs ++
          ((if endsLine true cs then [] else ['\n']) ++ tail))) := by
      rw [endLine_eq, endsLine_append, endsLine_cons, show isBreak '\n' = true by decide,
        endsLine_indentLines]
      split <;> simp
    dsimp only
    rw [hend]
    exact .token (by decide) (by decide) (by decide) hm
      (step?_bar.trans (blockScalar?_inBlock hscan)) (skip_atNext htail)
      (by simp [atLine, inBlock]; omega)

end Token

end BurnRate.Yaml
