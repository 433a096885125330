import BurnRate.Proofs.PrintableText
import BurnRate.Proofs.ScalarTokens

/-!
The tokens of a block document: the text that is written for a block is read back as the marks of
its structure around its scalars.
-/

namespace BurnRate.Yaml

mutual

/-- The tokens of a block. A list that is the value of a key on its line has no marks of its own. -/
def Block.tokens (indentless : Bool) : Block → List Token
  | .text s => [Token.ofScalar s.toList]
  | .list bs =>
    if bs.isEmpty then [.flowSequence, .flowSequenceEnd]
    else if indentless then itemTokens bs
    else .blockSequence :: itemTokens bs ++ [.blockEnd]
  | .record fs =>
    if fs.isEmpty then [.flowMapping, .flowMappingEnd]
    else .blockMapping :: fieldTokens fs ++ [.blockEnd]

def itemTokens : List Block → List Token
  | [] => []
  | b :: bs => .blockEntry :: b.tokens false ++ itemTokens bs

def fieldTokens : List (String × Block) → List Token
  | [] => []
  | (key, value) :: fs =>
    .key :: Token.ofScalar key.toList :: .value :: value.tokens (isSimpleKey key.toList)
      ++ fieldTokens fs

end

namespace Token

open LexState

variable {c : Char} {cs tail : List Char} {line col : ℕ} {ts : List Token} {is : List ℕ}
  {a : Bool} {k? : Option Candidate}

/-! ### Marks of structure -/

/-- The open collections, once one is open at a column. -/
def openAt (col : ℕ) (is : List ℕ) : List ℕ := if col < marginOf is then is else col :: is

/-- The token that opens a collection at a column, unless one is open there. -/
def openMark (col : ℕ) (is : List ℕ) (t : Token) : List Token :=
  if col < marginOf is then [] else [t]

lemma insertIdx_toArray (ts rest : List Token) (t : Token) :
    (ts ++ rest).toArray.insertIdxIfInBounds ts.length t = (ts ++ t :: rest).toArray := by
  rw [List.insertIdxIfInBounds_toArray]
  congr 1
  induction ts with
  | nil => simp
  | cons u ts ih => simpa using ih

lemma openBlock_inBlock (cursor : Cursor) (col : ℕ) (ts rest : List Token) (is : List ℕ) (a : Bool)
    (k? : Option Candidate) (t : Token) :
    (inBlock cursor (ts ++ rest) is a k?).openBlock col ts.length t =
      inBlock cursor (ts ++ openMark col is t ++ rest) (openAt col is) a k? := by
  rw [openBlock, margin_inBlock, openMark, openAt]
  by_cases h : col < marginOf is
  · simp [h]
  · simp only [h, inBlock, inFlow, List.isEmpty_nil, Bool.not_true, Bool.false_or, decide_false,
      Bool.false_eq_true, if_false, insertIdx_toArray]
    simp

/-- A collection is opened in the column of the cursor, behind all tokens. -/
lemma openBlock_here (t : Token) :
    (inBlock ⟨cs, line, col⟩ ts is a k?).openBlock col ts.toArray.size t =
      inBlock ⟨cs, line, col⟩ (ts ++ openMark col is t) (openAt col is) a k? := by
  have h := openBlock_inBlock ⟨cs, line, col⟩ col ts [] is a k? t
  rw [List.append_nil, List.append_nil] at h
  exact h

lemma dropCandidate?_inBlock (hk : k?.any (·.isRequired) = false) (cursor : Cursor) :
    (inBlock cursor ts is a k?).dropCandidate? = some (inBlock cursor ts is a none) := by
  simp [dropCandidate?, inBlock, hk]

lemma openAt_cons (col : ℕ) (is : List ℕ) : openAt col (col :: is) = col :: is :=
  if_pos (Nat.lt_succ_self col)

lemma openMark_cons (col : ℕ) (is : List ℕ) (t : Token) : openMark col (col :: is) t = [] :=
  if_pos (Nat.lt_succ_self col)

lemma openAt_of_le (h : marginOf is ≤ col) : openAt col is = col :: is :=
  if_neg (Nat.not_lt.2 h)

lemma openMark_of_le (h : marginOf is ≤ col) (t : Token) : openMark col is t = [t] :=
  if_neg (Nat.not_lt.2 h)

/-- The dash in front of an item. -/
lemma reads_entry (cs : List Char) (line : ℕ) (ts : List Token) {k? : Option Candidate}
    (hm : marginOf is ≤ col + 1) (hk : k?.any (·.isRequired) = false) :
    Reads (inBlock ⟨'-' :: ' ' :: cs, line, col⟩ ts is true k?)
      (inBlock ⟨cs, line, col + 2⟩ (ts ++ openMark col is .blockSequence ++ [.blockEntry])
        (openAt col is) true none) := by
  refine .token (by decide) (by decide) (by decide) hm ?_ skip_space (Nat.le_succ _)
  have hstep : (inBlock ⟨'-' :: ' ' :: cs, line, col⟩ ts is true k?).step? =
      blockEntry? (inBlock ⟨'-' :: ' ' :: cs, line, col⟩ ts is true k?) := by
    have hmark : startsWithMark '-' ('-' :: ' ' :: cs) = false := by
      rcases cs with _ | ⟨d, cs⟩ <;> rfl
    simp [step?, inBlock, hmark, startsWithMark_of_ne, endsToken, isSpacing]
  have hentry : blockEntry? (inBlock ⟨'-' :: ' ' :: cs, line, col⟩ ts is true k?) =
      ((inBlock ⟨'-' :: ' ' :: cs, line, col⟩ ts is true k?).openBlock col ts.toArray.size
        .blockSequence).dropCandidate?.bind fun s =>
          some { s.take 1 .blockEntry with keyAllowed := true } := rfl
  rw [hstep, hentry, openBlock_here, dropCandidate?_inBlock hk]
  simp [inBlock, take, Cursor.advance]

/-- The question mark in front of a key. -/
lemma reads_question (hm : marginOf is ≤ col + 1) (hk : k?.any (·.isRequired) = false) :
    Reads (inBlock ⟨'?' :: ' ' :: cs, line, col⟩ ts is true k?)
      (inBlock ⟨cs, line, col + 2⟩ (ts ++ openMark col is .blockMapping ++ [.key]) (openAt col is)
        true none) := by
  refine .token (by decide) (by decide) (by decide) hm ?_ skip_space (Nat.le_succ _)
  have hstep : (inBlock ⟨'?' :: ' ' :: cs, line, col⟩ ts is true k?).step? =
      (inBlock ⟨'?' :: ' ' :: cs, line, col⟩ ts is true k?).key := by
    simp [step?, inBlock, startsWithMark_of_ne, endsToken, isSpacing]
  have hkey : (inBlock ⟨'?' :: ' ' :: cs, line, col⟩ ts is true k?).key =
      ((inBlock ⟨'?' :: ' ' :: cs, line, col⟩ ts is true k?).openBlock col ts.toArray.size
        .blockMapping).dropCandidate?.bind fun s =>
          some { s.take 1 .key with keyAllowed := !s.inFlow } := rfl
  rw [hstep, hkey, openBlock_here, dropCandidate?_inBlock hk]
  simp [inBlock, inFlow, take, Cursor.advance]

lemma step?_colon (h : endsToken cs = true) :
    (inBlock ⟨':' :: cs, line, col⟩ ts is a k?).step? =
      (inBlock ⟨':' :: cs, line, col⟩ ts is a k?).value? := by
  simp [step?, inBlock, startsWithMark_of_ne, h]

/-- The colon behind a key that has a line of its own. -/
lemma reads_colon (hk : Stale line k?) :
    Reads (inBlock ⟨':' :: ' ' :: cs, line, col⟩ ts (col :: is) true k?)
      (inBlock ⟨cs, line, col + 2⟩ (ts ++ [.value]) (col :: is) true none) := by
  refine .token (by decide) (by decide) (by decide) (Nat.le_refl _) ?_ skip_space (Nat.le_succ _)
  have hkey : (inBlock ⟨':' :: ' ' :: cs, line, col⟩ ts (col :: is) true k?).key? = none := by
    cases k? with
    | none => rfl
    | some k =>
      have hline : k.line ≠ line := Nat.ne_of_lt (hk k rfl).2
      simp [key?, inBlock, hline]
  have hlost :
      (inBlock ⟨':' :: ' ' :: cs, line, col⟩ ts (col :: is) true k?).hasLostKey = false := by
    rw [hasLostKey, inBlock, hk.not_required, Bool.false_and]
  rw [step?_colon rfl, value?, hlost, hkey]
  simp [openBlock, margin, inBlock, inFlow, take, Cursor.advance]

/-- The colon behind a key on its line makes a key of the token before it. -/
lemma reads_keyColon {col' : ℕ} (t : Token) (htail : endsToken tail = true)
    (hm : marginOf is ≤ col' + 1) (hcol : col' ≤ col + maxKeyLength) :
    Reads (inBlock ⟨':' :: tail, line, col'⟩ (ts ++ [t]) is false (candidateAt true ts line col is))
      (inBlock ⟨tail, line, col' + 1⟩ (ts ++ openMark col is .blockMapping ++ [.key, t, .value])
        (openAt col is) false none) := by
  refine .token (by decide) (by decide) (by decide) hm ?_ rfl (Nat.le_refl _)
  have hkey : (inBlock ⟨':' :: tail, line, col'⟩ (ts ++ [t]) is false
      (candidateAt true ts line col is)).key? =
        some ⟨ts.length, line, col, is.head? == some col⟩ := by
    simp [key?, inBlock, candidateAt, hcol]
  have hlost : (inBlock ⟨':' :: tail, line, col'⟩ (ts ++ [t]) is false
      (candidateAt true ts line col is)).hasLostKey = false := by
    rw [hasLostKey, hkey]
    simp
  rw [step?_colon htail, value?, hlost, hkey]
  have hopen := openBlock_inBlock ⟨':' :: tail, line, col'⟩ col ts [.key, t] is false none
    .blockMapping
  simp only [inBlock, insertIdx_toArray, Bool.false_eq_true, if_false] at hopen ⊢
  rw [hopen]
  simp [take, Cursor.advance]

/-- An opening bracket or brace. -/
lemma reads_openFlow (isList : Bool) (hm : marginOf is ≤ col + 1) :
    Reads (inBlock ⟨(if isList then '[' else '\x7b') :: cs, line, col⟩ ts is a none)
      ⟨⟨cs, line, col + 1⟩,
        (ts ++ [if isList then Token.flowSequence else Token.flowMapping]).toArray, is, true, none,
        [candidateAt a ts line col is]⟩ := by
  have hnote : ∀ c, (inBlock ⟨c :: cs, line, col⟩ ts is a none).noteCandidate? =
      some (inBlock ⟨c :: cs, line, col⟩ ts is a (candidateAt a ts line col is)) :=
    fun c => noteCandidate?_inBlock rfl fun _ => rfl
  have hstep : ∀ t,
      (inBlock ⟨(if isList then '[' else '\x7b') :: cs, line, col⟩ ts is a none).openFlow? t =
        some ⟨⟨cs, line, col + 1⟩, (ts ++ [t]).toArray, is, true, none,
        [candidateAt a ts line col is]⟩ := by
    intro t
    rw [openFlow?, hnote]
    simp [inBlock, take, Cursor.advance]
  cases isList with
  | false =>
    refine .token (by decide) (by decide) (by decide) hm ?_ rfl (Nat.le_refl _)
    rw [← hstep]
    simp [step?, inBlock, startsWithMark_of_ne]
  | true =>
    refine .token (by decide) (by decide) (by decide) hm ?_ rfl (Nat.le_refl _)
    rw [← hstep]
    simp [step?, inBlock, startsWithMark_of_ne]

/-- A closing bracket or brace. -/
lemma reads_closeFlow (isList : Bool) :
    Reads ⟨⟨(if isList then ']' else '\x7d') :: cs, line, col⟩, ts.toArray, is, true, none, [k?]⟩
      (inBlock ⟨cs, line, col + 1⟩
        (ts ++ [if isList then .flowSequenceEnd else .flowMappingEnd]) is false k?) := by
  have hskip : ∀ c, isSpacing c = false → isBreak c = false → c ≠ '#' →
      LexState.skip ⟨⟨c :: cs, line, col⟩, ts.toArray, is, true, none, [k?]⟩ =
        ⟨⟨c :: cs, line, col⟩, ts.toArray, is, true, none, [k?]⟩ := by
    intro c hs hb hc
    simp only [isSpacing, Bool.or_eq_false_iff] at hs
    simp [skip, inFlow, skipGap, closeBlocks, hs.1, hs.2, hb, hc]
  cases isList with
  | false =>
    have h := hskip '\x7d' (by decide) (by decide) (by decide)
    refine .step (by simp [h]) ?_ rfl (Nat.le_refl _)
    simp only [Bool.false_eq_true, if_false, h]
    simp [step?, startsWithMark_of_ne, closeFlow?, dropCandidate?, take, Cursor.advance, inBlock]
  | true =>
    have h := hskip ']' (by decide) (by decide) (by decide)
    refine .step (by simp [h]) ?_ rfl (Nat.le_refl _)
    simp only [if_true, h]
    simp [step?, startsWithMark_of_ne, closeFlow?, dropCandidate?, take, Cursor.advance, inBlock]

/-! ### Blocks -/

/-- The lexer comes to the start of a line, and the candidate it has there can be no key. -/
def ReadsTo (s : LexState) (tail : List Char) (ts : List Token) (is : List ℕ) : Prop :=
  ∃ line k?, Stale line k? ∧ Reads s (atLine tail line ts is k?)

lemma Reads.readsTo {s t : LexState} (h : Reads s t) (h' : ReadsTo t tail ts is) :
    ReadsTo s tail ts is := by
  obtain ⟨line, k?, hk, ht⟩ := h'
  exact ⟨line, k?, hk, h.trans ht⟩

lemma ReadsTo.trans {s : LexState} {mid : List Char} {ts' : List Token} {is' : List ℕ}
    (h : ReadsTo s mid ts' is')
    (h' : ∀ line k?, Stale line k? → ReadsTo (atLine mid line ts' is' k?) tail ts is) :
    ReadsTo s tail ts is := by
  obtain ⟨line, k?, hk, hs⟩ := h
  exact hs.readsTo (h' line k? hk)

/-- What follows to the left of a collection ends it. -/
lemma ReadsTo.close {s : LexState} {j : ℕ} (h : ReadsTo s tail ts (j :: is))
    (htail : Follows j tail) :
    ReadsTo s tail (ts ++ [.blockEnd]) is := by
  obtain ⟨line, k?, hk, hs⟩ := h
  exact ⟨line, k?, hk, hs.trans (.close htail hk.not_required)⟩

/-- An empty list or record is read with the line end behind it. -/
lemma reads_empty (isList a : Bool) (hm : marginOf is ≤ col + 1)
    (hi : a = true → is.head? ≠ some col) :
    ReadsTo (inBlock ⟨(if isList then '[' else '\x7b') :: (if isList then ']' else '\x7d') ::
        '\n' :: tail, line, col⟩ ts is a none) tail
      (ts ++ [if isList then .flowSequence else .flowMapping,
        if isList then .flowSequenceEnd else .flowMappingEnd]) is := by
  have hstale : Stale (line + 1) (candidateAt a ts line col is) := by
    cases a with
    | false => exact .none
    | true => exact .candidateAt (Nat.lt_succ_self line) (hi rfl)
  refine ⟨line + 1, _, hstale, ?_⟩
  refine (reads_openFlow isList hm).trans ((reads_closeFlow isList).trans ?_)
  rw [List.append_assoc, List.singleton_append]
  exact .of_skip skip_break (Nat.le_succ _)

/-- A block is read back in its column, and as a value behind the colon of a key. A text needs
a collection around it. -/
structure IsRead (b : Block) : Prop where
  inColumn : ∀ indent is ts line tail, marginOf is ≤ indent →
    (∀ s, b = .text s → ∃ p is', is = p :: is' ∧ indent = p + 2) → Follows (marginOf is) tail →
    ReadsTo (inBlock ⟨b.writeAt indent ++ tail, line, indent⟩ ts is true none) tail
      (ts ++ b.tokens false) is
  asValue : ∀ p is ts line col tail, p < col → Follows (p + 1) tail →
    ReadsTo (inBlock ⟨Block.writeValue p b ++ tail, line, col⟩ ts (p :: is) false none) tail
      (ts ++ b.tokens true) (p :: is)

lemma writeScalar_head (indent : ℕ) (cs : List Char) : ∃ c rest,
    writeScalar indent cs = c :: rest ∧ isSpacing c = false ∧ isBreak c = false ∧ c ≠ '#' := by
  rw [writeScalar]
  cases hstyle : Style.choose cs with
  | plain =>
    obtain ⟨hallows, hplain⟩ := choose_plain hstyle
    obtain ⟨c, cs, rfl⟩ := List.exists_cons_of_ne_nil (ne_nil_of_isPlainText hplain)
    exact ⟨c, cs, rfl, allowsPlain_head hallows⟩
  | singleQuoted => exact ⟨'\'', _, rfl, by decide, by decide, by decide⟩
  | doubleQuoted => exact ⟨'"', _, rfl, by decide, by decide, by decide⟩
  | literal => exact ⟨'|', _, rfl, by decide, by decide, by decide⟩

lemma writeField_head (indent : ℕ) (f : String × Block) : ∃ c rest,
    Block.writeField indent f = c :: rest ∧ isSpacing c = false ∧ isBreak c = false ∧ c ≠ '#' := by
  obtain ⟨key, b⟩ := f
  rw [Block.writeField]
  split
  · obtain ⟨c, rest, hw, h⟩ := writeScalar_head (indent + 2) key.toList
    exact ⟨c, rest ++ ':' :: Block.writeValue indent b, by rw [hw, List.cons_append], h⟩
  · exact ⟨'?', _, rfl, by decide, by decide, by decide⟩

lemma endsToken_writeValue (indent : ℕ) (b : Block) (tail : List Char) :
    endsToken (Block.writeValue indent b ++ tail) = true := by
  rcases b with s | (_ | ⟨b, bs⟩) | (_ | ⟨f, fs⟩) <;> rfl

lemma follows_items {indent : ℕ} (h : Follows (indent + 1) tail) (bs : List Block) :
    Follows (indent + 1) (Block.writeItems indent bs ++ tail) := by
  cases bs with
  | nil => exact h
  | cons b bs =>
    rw [Block.writeItems, List.append_assoc, List.append_assoc, List.cons_append]
    exact .line indent '-' _ (Nat.lt_succ_self _) (by decide) (by decide) (by decide)

lemma follows_fields {indent : ℕ} (h : Follows (indent + 1) tail) (fs : List (String × Block)) :
    Follows (indent + 1) (Block.writeFields indent fs ++ tail) := by
  cases fs with
  | nil => exact h
  | cons f fs =>
    obtain ⟨c, rest, hw, hs, hb, hc⟩ := writeField_head indent f
    rw [Block.writeFields, hw, List.append_assoc, List.append_assoc, List.cons_append]
    exact .line indent c _ (Nat.lt_succ_self _) hs hb hc

/-- From the start of a line, the column is reached over the indentation. -/
lemma reads_indent (k : ℕ) :
    Reads (atLine (spaces k ++ cs) line ts is k?) (inBlock ⟨cs, line, k⟩ ts is true k?) := by
  refine .of_skip ?_ (by simp [atLine, inBlock])
  rw [atLine, skip_spaces, Nat.zero_add]

lemma reads_items {bs : List Block} (hbs : ∀ b ∈ bs, IsRead b) (indent line : ℕ) (ts : List Token)
    (is : List ℕ) {k? : Option Candidate} (hk : Stale line k?) (htail : Follows (indent + 1) tail) :
    ReadsTo (atLine (Block.writeItems indent bs ++ tail) line ts (indent :: is) k?) tail
      (ts ++ itemTokens bs) (indent :: is) := by
  induction bs generalizing line ts k? with
  | nil =>
    rw [itemTokens, List.append_nil]
    exact ⟨line, k?, hk, .refl _⟩
  | cons b bs ih =>
    rw [Block.writeItems, itemTokens]
    simp only [List.append_assoc, List.cons_append]
    refine (reads_indent indent).readsTo
      ((reads_entry _ _ _ (Nat.le_refl _) hk.not_required).readsTo ?_)
    rw [openMark_cons, openAt_cons, List.append_nil]
    have hitem := (hbs b (by simp)).inColumn (indent + 2) (indent :: is) (ts ++ [.blockEntry]) line
      (Block.writeItems indent bs ++ tail) (Nat.le_succ _) (fun _ _ => ⟨indent, is, rfl, rfl⟩)
      (follows_items htail bs)
    refine hitem.trans fun line k? hk => ?_
    have hrest :=
      ih (fun b hb => hbs b (by simp [hb])) line (ts ++ [.blockEntry] ++ b.tokens false) hk
    simpa using hrest

/-- A field whose record is open in the column or is opened by it. -/
lemma reads_field {b : Block} (hb : IsRead b) (key : String) (indent line : ℕ) (ts : List Token)
    {is is' : List ℕ} (k? : Option Candidate) (hm : marginOf is ≤ indent + 1)
    (his : openAt indent is = indent :: is') (hk : k?.any (·.isRequired) = false)
    (htail : Follows (indent + 1) tail) :
    ReadsTo (inBlock ⟨Block.writeField indent (key, b) ++ tail, line, indent⟩ ts is true k?) tail
      (ts ++ openMark indent is .blockMapping ++ fieldTokens [(key, b)]) (indent :: is') := by
  rw [Block.writeField, fieldTokens, fieldTokens]
  by_cases hkey : isSimpleKey key.toList = true
  · rw [if_pos hkey, hkey, List.append_assoc, List.cons_append]
    obtain ⟨col, hle, hcol, hread⟩ := reads_key hkey (Nat.succ_pos (indent + 1)) hm
      (endsToken_writeValue indent b tail) hk
    refine hread.readsTo ((reads_keyColon _ (endsToken_writeValue indent b tail) (by omega)
      hcol).readsTo ?_)
    rw [his]
    have hvalue := hb.asValue indent is' (ts ++ openMark indent is .blockMapping ++
      [.key, ofScalar key.toList, .value]) line (col + 1) tail (by omega) htail
    simpa using hvalue
  · rw [if_neg hkey, Bool.eq_false_iff.2 hkey]
    simp only [List.append_assoc, List.cons_append]
    refine (reads_question hm hk).readsTo ?_
    rw [his]
    obtain ⟨line, k?, hk, hread⟩ := reads_value key.toList
      (ts ++ openMark indent is .blockMapping ++ [.key]) is' true line
      (Nat.lt_add_of_pos_right Nat.two_pos) (.line indent ':'
        (' ' :: (Block.writeAt (indent + 2) b ++ tail)) (Nat.lt_succ_self _) (by decide) (by decide)
        (by decide))
    refine hread.readsTo ((reads_indent indent).readsTo ((reads_colon hk).readsTo ?_))
    have hvalue := hb.inColumn (indent + 2) (indent :: is')
      (ts ++ openMark indent is .blockMapping ++ [.key, ofScalar key.toList, .value]) line tail
      (Nat.le_succ _)
      (fun _ _ => ⟨indent, is', rfl, rfl⟩) htail
    simpa using hvalue

lemma reads_fields {fs : List (String × Block)} (hfs : ∀ f ∈ fs, IsRead f.2) (indent line : ℕ)
    (ts : List Token) (is : List ℕ) {k? : Option Candidate} (hk : Stale line k?)
    (htail : Follows (indent + 1) tail) :
    ReadsTo (atLine (Block.writeFields indent fs ++ tail) line ts (indent :: is) k?) tail
      (ts ++ fieldTokens fs) (indent :: is) := by
  induction fs generalizing line ts k? with
  | nil =>
    rw [fieldTokens, List.append_nil]
    exact ⟨line, k?, hk, .refl _⟩
  | cons f fs ih =>
    obtain ⟨key, b⟩ := f
    rw [Block.writeFields, List.append_assoc, List.append_assoc]
    refine (reads_indent indent).readsTo ?_
    have hfield := reads_field (hfs (key, b) (by simp)) key indent line ts k? (Nat.le_refl _)
      (openAt_cons indent is) hk.not_required (follows_fields htail fs)
    refine hfield.trans fun line k? hk => ?_
    have hrest := ih (fun f hf => hfs f (by simp [hf])) line
      (ts ++ openMark indent (indent :: is) .blockMapping ++ fieldTokens [(key, b)]) hk
    simpa [openMark_cons, fieldTokens] using hrest

/-- A list is read in its column, up to the end that what follows gives it. -/
lemma reads_list {b : Block} {bs : List Block} (hbs : ∀ d ∈ b :: bs, IsRead d) (indent line : ℕ)
    (ts : List Token) (hm : marginOf is ≤ indent) (htail : Follows (marginOf is) tail) :
    ReadsTo (inBlock ⟨Block.writeAt indent (.list (b :: bs)) ++ tail, line, indent⟩ ts is true none)
      tail (ts ++ Block.tokens false (.list (b :: bs))) is := by
  have hindent : Follows (indent + 1) tail := htail.mono (by omega)
  have hentry := reads_entry (Block.writeAt (indent + 2) b ++ (Block.writeItems indent bs ++ tail))
    line ts (Nat.le_succ_of_le hm) (rfl : (none : Option Candidate).any (·.isRequired) = false)
  rw [openMark_of_le hm, openAt_of_le hm] at hentry
  have hitem := (hbs b (by simp)).inColumn (indent + 2) (indent :: is)
    (ts ++ [.blockSequence] ++ [.blockEntry]) line (Block.writeItems indent bs ++ tail)
    (Nat.le_succ _) (fun _ _ => ⟨indent, is, rfl, rfl⟩) (follows_items hindent bs)
  have hitems := hitem.trans fun line k? hk =>
    reads_items (fun d hd => hbs d (List.mem_cons_of_mem b hd)) indent line
      (ts ++ [.blockSequence] ++ [.blockEntry] ++ b.tokens false) is hk hindent
  have hlist := (hentry.readsTo hitems).close (htail.mono hm)
  rw [Block.writeAt, Block.tokens, itemTokens]
  simpa using hlist

lemma reads_record {f : String × Block} {fs : List (String × Block)}
    (hfs : ∀ d ∈ f :: fs, IsRead d.2) (indent line : ℕ) (ts : List Token) (is : List ℕ)
    (hm : marginOf is ≤ indent) (htail : Follows (marginOf is) tail) :
    ReadsTo
      (inBlock ⟨Block.writeAt indent (.record (f :: fs)) ++ tail, line, indent⟩ ts is true none)
      tail (ts ++ Block.tokens false (.record (f :: fs))) is := by
  have hindent : Follows (indent + 1) tail := htail.mono (by omega)
  obtain ⟨key, b⟩ := f
  rw [Block.writeAt, Block.tokens, List.append_assoc]
  have hfield := reads_field (hfs (key, b) (by simp)) key indent line ts none (by omega)
    (openAt_of_le hm) rfl (follows_fields hindent fs)
  have hfields := hfield.trans fun line k? hk =>
    reads_fields (fun d hd => hfs d (List.mem_cons_of_mem (key, b) hd)) indent line
      (ts ++ openMark indent is .blockMapping ++ fieldTokens [(key, b)]) is hk hindent
  have hrecord := hfields.close (htail.mono hm)
  simpa [openMark_of_le hm, fieldTokens] using hrecord

lemma head?_ne_of_marginOf_le (hm : marginOf is ≤ col) : is.head? ≠ some col := by
  rcases is with _ | ⟨i, is⟩
  · simp
  · rw [marginOf] at hm
    simp only [List.head?_cons, ne_eq, Option.some.injEq]
    omega

/-- Every block is read back. -/
lemma isRead (b : Block) : IsRead b := by
  induction b using Block.induction with
  | text s =>
    refine ⟨fun indent is ts line tail hm htext htail => ?_,
      fun p is ts line col tail hp htail => ?_⟩
    · obtain ⟨p, is, rfl, rfl⟩ := htext s rfl
      obtain ⟨line, k?, hk, hread⟩ := reads_value s.toList ts is true line
        (Nat.lt_add_of_pos_right Nat.two_pos) htail
      exact ⟨line, k?, hk, hread⟩
    · obtain ⟨line, k?, hk, hread⟩ := reads_value s.toList ts is false line (Nat.lt_succ_of_lt hp)
        htail
      exact ⟨line, k?, hk, (Reads.of_skip skip_space (Nat.le_succ _)).trans hread⟩
  | list bs hbs =>
    cases bs with
    | nil =>
      refine ⟨fun indent is ts line tail hm _ _ => ?_, fun p is ts line col tail hp _ => ?_⟩
      · exact reads_empty true true (Nat.le_succ_of_le hm) fun _ => head?_ne_of_marginOf_le hm
      · exact (Reads.of_skip skip_space (Nat.le_succ _)).readsTo
          (reads_empty true false (by rw [marginOf]; omega) (by simp))
    | cons b bs =>
      refine ⟨fun indent is ts line tail hm _ htail => reads_list hbs indent line ts hm htail,
        fun p is ts line col tail hp htail => ?_⟩
      have hitems := reads_items hbs p (line + 1) ts is .none htail
      exact (Reads.of_skip skip_break (Nat.le_succ _)).readsTo hitems
  | record fs hfs =>
    cases fs with
    | nil =>
      refine ⟨fun indent is ts line tail hm _ _ => ?_, fun p is ts line col tail hp _ => ?_⟩
      · exact reads_empty false true (Nat.le_succ_of_le hm) fun _ => head?_ne_of_marginOf_le hm
      · exact (Reads.of_skip skip_space (Nat.le_succ _)).readsTo
          (reads_empty false false (by rw [marginOf]; omega) (by simp))
    | cons f fs =>
      refine ⟨fun indent is ts line tail hm _ htail => reads_record hfs indent line ts is hm htail,
        fun p is ts line col tail hp htail => ?_⟩
      have hrecord := reads_record hfs (p + 2) (line + 1) ts (p :: is) (Nat.le_succ _) htail
      rw [Block.writeAt, List.append_assoc] at hrecord
      rw [Block.writeValue, List.append_assoc, List.append_assoc]
      exact (Reads.of_skip skip_break (Nat.le_succ _)).readsTo
        ((reads_indent (p + 2)).readsTo hrecord)

/-- The text of a document is read back as the tokens of its block. -/
theorem ofText?_write {b : Block} (hb : ∀ s, b ≠ .text s) :
    ofText? b.write = some (b.tokens false) := by
  have hall := (isPrintable_block b 0).1
  have hallowed : (b.writeAt 0).all isAllowed = true :=
    List.all_eq_true.2 fun c hc => isAllowed_of_printable (List.all_eq_true.1 hall c hc)
  obtain ⟨line, k?, hk, n, hn, hrun⟩ := (isRead b).inColumn 0 [] [] 0 [] (Nat.zero_le _)
    (fun s h => absurd h (hb s)) .done
  rw [List.append_nil] at hn hrun
  -- the steps are no more than the characters, and one more finds the end of the text
  obtain ⟨m, hm⟩ : ∃ m, (b.writeAt 0).length = m + n := ⟨_, (Nat.sub_add_cancel hn).symm⟩
  have hread : run? (inBlock ⟨b.writeAt 0, 0, 0⟩ [] [] true none) ((b.writeAt 0).length + 1) =
      some (inBlock ⟨[], line, 0⟩ (b.tokens false) [] false none) := by
    rw [hm, Nat.add_right_comm, hrun, run?_end hk.not_required]
    simp
  rw [ofText?, Block.write, String.toList_ofList, hallowed, unifyBreaks_of_printable hall]
  simp only [Bool.not_true, Bool.false_eq_true, if_false, startOf_of_printable hall]
  have hstart : ({ cursor := ⟨b.writeAt 0, 0, 0⟩ } : LexState) =
      inBlock ⟨b.writeAt 0, 0, 0⟩ [] [] true none := rfl
  rw [hstart, hread]
  simp [inBlock]

end Token

end BurnRate.Yaml
