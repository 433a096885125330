import BurnRate.Proofs.CopiedTexts
import BurnRate.Proofs.DurationText

/-!
White space around a text, as its tokens show it.

White space behind a text never joins what is read before it: it is a piece of text of its own, part
of the last piece of text, or left in a tag that has no end. White space in front is part of the
first piece of text and moves the lines.
-/

namespace BurnRate.Expression.Lexer

/-! ### Characters -/

lemma toNat_of_isBlank {c : Char} (hc : Text.isBlank c = true) :
    c.toNat ≤ 32 ∨ 127 < c.toNat := by
  simp only [Text.isBlank, Bool.or_eq_true, Bool.and_eq_true, decide_eq_true_eq, beq_iff_eq] at hc
  omega

section

variable {b : Char} (hb : Text.isBlank b = true)

include hb

/-- A mark of a text is not white space. -/
lemma ne_of_isBlank {d : Char} (hd : Text.isBlank d = false) : b ≠ d := by
  rintro rfl
  rw [hb] at hd
  cases hd

lemma isDigit_of_isBlank : b.isDigit = false := by
  rw [Bool.eq_false_iff]
  intro h
  have := Duration.not_blank_of_isDigit h
  rw [hb] at this
  cases this

lemma isAlpha_of_isBlank : b.isAlpha = false := by
  have hblank := toNat_of_isBlank hb
  rw [Bool.eq_false_iff]
  intro h
  rcases Bool.or_eq_true_iff.1 h with h | h
  · have hletter : 65 ≤ b.toNat ∧ b.toNat ≤ 90 := between_of_isUpper h
    omega
  · have hletter : 97 ≤ b.toNat ∧ b.toNat ≤ 122 := between_of_isLower h
    omega

lemma isIdentStart_of_isBlank : isIdentStart b = false := by
  simp [isIdentStart, isAlpha_of_isBlank hb, ne_of_isBlank hb (d := '_') (by decide)]

lemma isIdentChar_of_isBlank : isIdentChar b = false := by
  simp [isIdentChar, Char.isAlphanum, isAlpha_of_isBlank hb, isDigit_of_isBlank hb,
    ne_of_isBlank hb (d := '_') (by decide)]

lemma hexDigit?_of_isBlank : hexDigit? b = none := by
  have hblank := toNat_of_isBlank hb
  have hlower : ¬ ('a' ≤ b ∧ b ≤ 'f') := by
    rintro ⟨h, h'⟩
    have h₁ : 97 ≤ b.toNat := h
    have h₂ : b.toNat ≤ 102 := h'
    omega
  have hupper : ¬ ('A' ≤ b ∧ b ≤ 'F') := by
    rintro ⟨h, h'⟩
    have h₁ : 65 ≤ b.toNat := h
    have h₂ : b.toNat ≤ 70 := h'
    omega
  simp [hexDigit?, isDigit_of_isBlank hb, hlower, hupper]

lemma ofChar?_of_isBlank : Marker.ofChar? b = none := by
  simp [Marker.ofChar?, ne_of_isBlank hb (d := '\x7b') (by decide),
    ne_of_isBlank hb (d := '%') (by decide), ne_of_isBlank hb (d := '#') (by decide)]

lemma symbol2?_of_isBlank (c : Char) : symbol2? c b = none := by
  unfold symbol2?
  split <;> first | rfl | exact absurd hb (by decide)

lemma symbol?_of_isBlank : symbol? b = none := by
  unfold symbol?
  split <;> first | rfl | exact absurd hb (by decide)

/-- White space that a tag does not skip starts no token. -/
lemma scanToken_of_isBlank (dotted : Bool) (cs : List Char)
    (hcs : ∀ c ∈ cs.head?, Text.isBlank c = true) :
    scanToken dotted b cs = (.malformed .syntaxError, []) := by
  have hsymbol2 : cs.head?.bind (symbol2? b) = none := by
    rw [Option.bind_eq_none_iff]
    exact fun c hc => symbol2?_of_isBlank (hcs c hc) b
  simp [scanToken, hsymbol2, symbol?_of_isBlank hb, ne_of_isBlank hb (d := '\'') (by decide),
    ne_of_isBlank hb (d := '"') (by decide), isDigit_of_isBlank hb, isIdentStart_of_isBlank hb]

end

/-- The base of a number, and its digits with what follows. -/
def baseOf (cs : List Char) : ℕ × List Char :=
  match cs with
  | '0' :: c :: r =>
    if c == 'b' || c == 'B' then (2, r)
    else if c == 'o' || c == 'O' then (8, r)
    else if c == 'x' || c == 'X' then (16, r)
    else (10, cs)
  | _ => (10, cs)

/-- The digits of a number, whether it is a float and what follows. -/
def digitsOf (behindDot : Bool) (base : ℕ) (cs : List Char) : List Char × Bool × List Char :=
  if base = 10 then
    let (ds, state, rest) := scanDecimal (if behindDot then .index else .whole) cs
    (ds, !state.isWhole, rest)
  else
    let isDigit (c : Char) : Bool :=
      c == '_' || c.isDigit || (base == 16 && (hexDigit? c).isSome)
    (cs.takeWhile isDigit, false, cs.dropWhile isDigit)

/-- The token that the digits of a number are. -/
def numberOf (base : ℕ) (digits : List Char) (isFloat : Bool) : Option Token :=
  if digits.getLast? == some '_' then none
  else if isFloat then (floatValue? (digits.filter (· != '_'))).map .float
  else (natural? base (digits.filter (· != '_'))).map .int

lemma scanNumber_eq (behindDot : Bool) (cs : List Char) :
    scanNumber behindDot cs =
      let (digits, isFloat, rest) := digitsOf behindDot (baseOf cs).1 (baseOf cs).2
      (numberOf (baseOf cs).1 digits isFloat, rest) := by
  have hnumber (base : ℕ) (ds rest : List Char) (isFloat : Bool) :
      (if ds.getLast? == some '_' then (none, rest)
        else if isFloat then ((floatValue? (ds.filter (· != '_'))).map .float, rest)
        else ((natural? base (ds.filter (· != '_'))).map .int, rest)) =
      (numberOf base ds isFloat, rest) := by
    unfold numberOf
    split
    · rfl
    · split <;> rfl
  exact hnumber _ _ _ _

lemma span_append_of_ne_nil {p : Char → Bool} {cs : List Char} (h : cs.dropWhile p ≠ [])
    (r : List Char) :
    (cs ++ r).takeWhile p = cs.takeWhile p ∧ (cs ++ r).dropWhile p = cs.dropWhile p ++ r := by
  induction cs with
  | nil => exact absurd rfl h
  | cons c cs ih =>
    cases hc : p c
    · simp [hc]
    · simpa [hc] using ih (by simpa [hc] using h)

/-! ### Tokens take room -/

lemma length_rawString? {quote : Char} {cs s rest : List Char}
    (h : rawString? quote cs = some (s, rest)) : rest.length ≤ cs.length := by
  fun_induction rawString? quote cs generalizing s rest with
  | case1 => cases h
  | case2 c cs ih =>
    obtain ⟨⟨s, rest⟩, hrest, heq⟩ := Option.map_eq_some_iff.1 h
    cases heq
    have := ih hrest
    simp only [List.length_cons]
    omega
  | case3 c cs hne hc =>
    cases h
    exact Nat.le_succ _
  | case4 => cases h
  | case5 c cs hne hc hbackslash ih =>
    obtain ⟨⟨s, rest⟩, hrest, heq⟩ := Option.map_eq_some_iff.1 h
    cases heq
    have := ih hrest
    simp only [List.length_cons]
    omega

lemma length_scanDecimal (state : NumberState) (cs : List Char) :
    (scanDecimal state cs).2.2.length ≤ cs.length := by
  induction cs generalizing state with
  | nil => exact le_rfl
  | cons c cs ih =>
    rw [scanDecimal]
    dsimp only
    split
    · next next _ => exact (ih next).trans (Nat.le_succ _)
    · exact le_rfl

lemma baseOf_cons (c : Char) (cs : List Char) :
    baseOf (c :: cs) = (10, c :: cs) ∨
      (baseOf (c :: cs)).1 ≠ 10 ∧ (baseOf (c :: cs)).2.length ≤ cs.length := by
  unfold baseOf
  split
  · next d ds h =>
    cases h
    split_ifs <;> simp
  · exact .inl rfl

lemma length_scanNumber (behindDot : Bool) {c : Char} (hc : c.isDigit = true) (cs : List Char) :
    (scanNumber behindDot (c :: cs)).2.length ≤ cs.length := by
  rw [scanNumber_eq]
  rcases baseOf_cons c cs with hbase | ⟨hbase, hbody⟩
  · -- the first digit is taken
    have hstep (state : NumberState) : (scanDecimal state (c :: cs)).2.2.length ≤ cs.length := by
      simp only [scanDecimal, hc, if_true]
      exact length_scanDecimal _ cs
    rw [hbase]
    simp only [digitsOf, if_true]
    exact hstep _
  · simp only [digitsOf, if_neg hbase]
    exact (List.dropWhile_sublist _).length_le.trans hbody

lemma length_scanToken (dotted : Bool) (c : Char) (cs : List Char) :
    (scanToken dotted c cs).2.length ≤ cs.length := by
  unfold scanToken
  split
  · simp
  split
  · exact le_rfl
  split
  · split
    · exact Nat.zero_le _
    · next raw rest hraw =>
      split
      · exact length_rawString? hraw
      · exact Nat.zero_le _
  split
  · next hdigit =>
    have hrest := length_scanNumber dotted hdigit cs
    split
    · next t rest hnumber => simpa [hnumber] using hrest
    · exact Nat.zero_le _
  split
  · exact (List.dropWhile_sublist _).length_le
  · exact Nat.zero_le _

lemma drop_spacing_append (cs r : List Char) :
    (cs ++ r).drop (Spacing.ofChar cs.head?).length =
      cs.drop (Spacing.ofChar cs.head?).length ++ r := by
  cases cs with
  | nil => rfl
  | cons c cs =>
    refine List.drop_append_of_le_length ?_
    cases Spacing.ofChar (c :: cs).head? <;> simp [Spacing.length]

section

variable {r : List Char} (hr : ∀ c ∈ r, Text.isBlank c = true)

include hr

/-! ### Runs of characters -/

lemma takeWhile_append_blank {p : Char → Bool} (hp : ∀ c, Text.isBlank c = true → p c = false)
    (cs : List Char) :
    (cs ++ r).takeWhile p = cs.takeWhile p ∧ (cs ++ r).dropWhile p = cs.dropWhile p ++ r := by
  induction cs with
  | nil =>
    cases r with
    | nil => exact ⟨rfl, rfl⟩
    | cons b r => simp [hp b (hr b List.mem_cons_self)]
  | cons c cs ih =>
    cases hc : p c
    · simp [hc]
    · simpa [hc] using ih

lemma any_head?_append_blank {p : Char → Bool} (hp : ∀ c, Text.isBlank c = true → p c = false)
    (cs : List Char) : (cs ++ r).head?.any p = cs.head?.any p := by
  cases cs with
  | nil =>
    cases r with
    | nil => rfl
    | cons b r => simp [hp b (hr b List.mem_cons_self)]
  | cons c cs => rfl

/-- Blanks of a tag are skipped with those behind the text, if there is nothing else. -/
lemma dropWhile_isTagBlank_append (cs : List Char) :
    ∃ r' : List Char, (∀ c ∈ r', Text.isBlank c = true) ∧
      (cs ++ r).dropWhile isTagBlank = cs.dropWhile isTagBlank ++ r' ∧
      (cs.dropWhile isTagBlank ≠ [] → r' = r) := by
  by_cases hcs : cs.dropWhile isTagBlank = []
  · refine ⟨r.dropWhile isTagBlank, fun c hc => hr c ((List.dropWhile_sublist _).subset hc), ?_,
      fun h => absurd hcs h⟩
    rw [List.dropWhile_append, hcs]
    rfl
  · exact ⟨r, hr, (span_append_of_ne_nil hcs r).2, fun _ => rfl⟩

lemma spacing_append_blank (cs : List Char) :
    Spacing.ofChar (cs ++ r).head? = Spacing.ofChar cs.head? := by
  cases cs with
  | nil =>
    cases r with
    | nil => rfl
    | cons b r =>
      have hb := hr b List.mem_cons_self
      simp [Spacing.ofChar, ne_of_isBlank hb (d := '-') (by decide),
        ne_of_isBlank hb (d := '+') (by decide)]
  | cons c cs => rfl

/-! ### Marks and tags -/

lemma split?_of_allBlank : split? r = none := by
  induction r with
  | nil => rfl
  | cons b r ih =>
    obtain ⟨hb, hr⟩ := List.forall_mem_cons.1 hr
    rw [split?_cons_of_ne (ne_of_isBlank hb (by decide)), ih hr]
    rfl

lemma split?_append_blank (cs : List Char) :
    split? (cs ++ r) = (split? cs).map fun s => { s with rest := s.rest ++ r } := by
  fun_induction split? cs with
  | case1 c cs marker hmarker =>
    rw [List.cons_append, List.cons_append, split?, hmarker]
    simp only [spacing_append_blank hr, drop_spacing_append]
    rfl
  | case2 c cs hmarker ih =>
    rw [List.cons_append] at ih
    rw [List.cons_append, List.cons_append, split?, hmarker]
    simp [ih, Function.comp_def]
  | case3 c cs hne ih =>
    by_cases hc : c = '\x7b'
    · -- a brace at the end of the text starts no tag with the white space behind it
      subst hc
      obtain rfl : cs = [] := by
        cases cs with
        | nil => rfl
        | cons d ds => exact absurd rfl (hne d ds rfl)
      cases r with
      | nil => rfl
      | cons b r =>
        rw [List.nil_append] at ih
        rw [List.singleton_append, split?, ofChar?_of_isBlank (hr b List.mem_cons_self)]
        simp [ih, split?]
    · rw [List.cons_append, split?_cons_of_ne hc, ih]
      simp [Function.comp_def]
  | case4 => exact split?_of_allBlank hr

lemma around?_append_blank {a b : Char} (hb : Text.isBlank b = false) (cs : List Char) :
    around? a b (cs ++ r) = (around? a b cs).map fun p => (p.1, p.2 ++ r) := by
  have hnone (d : Char) : ∀ {r : List Char}, (∀ c ∈ r, Text.isBlank c = true) →
      around? a b (d :: r) = none := by
    intro r hr
    induction r generalizing d with
    | nil => rfl
    | cons e r ih =>
      obtain ⟨he, hr⟩ := List.forall_mem_cons.1 hr
      simp [around?, ne_of_isBlank he hb, ih e hr]
  fun_induction around? a b cs with
  | case1 c d cs hmark => simp [around?, hmark]
  | case2 c d cs hmark ih =>
    rw [List.cons_append] at ih
    simp [around?, hmark, ih, Function.comp_def]
  | case3 cs hne =>
    cases cs with
    | nil =>
      cases r with
      | nil => rfl
      | cons e r => exact hnone e (List.forall_mem_cons.1 hr).2
    | cons c cs =>
      cases cs with
      | nil => exact hnone c hr
      | cons d cs => exact absurd rfl (hne c d cs)

lemma behind?_append_blank {p : List Char} (hp : p.any Text.isBlank = false)
    (cs : List Char) : behind? p (cs ++ r) = (behind? p cs).map (· ++ r) := by
  induction p generalizing cs with
  | nil => rfl
  | cons a p ih =>
    obtain ⟨ha, hp⟩ := Bool.or_eq_false_iff.1 hp
    cases cs with
    | nil =>
      cases r with
      | nil => rfl
      | cons b r =>
        have hab : a ≠ b := (ne_of_isBlank (hr b List.mem_cons_self) ha).symm
        simp [behind?, hab]
    | cons c cs =>
      rw [List.cons_append, behind?, behind?, ih hp]
      split <;> rfl

lemma bareTag?_append_blank {name : List Char} (hname : name.any Text.isBlank = false)
    (hne : name ≠ []) (cs : List Char) :
    bareTag? name (cs ++ r) = (bareTag? name cs).map fun p => (p.1, p.2 ++ r) := by
  -- behind blanks alone, nothing is found
  have hfound {p : List Char} (hp : p.any Text.isBlank = false) (hp' : p ≠ [])
      (ds : List Char) {r' : List Char} (hr' : ∀ c ∈ r', Text.isBlank c = true) (h : ds ≠ [] → r' = r) :
      behind? p (ds ++ r') = (behind? p ds).map (· ++ r) := by
    rw [behind?_append_blank hr' hp]
    cases ds with
    | nil =>
      obtain ⟨a, p, rfl⟩ := List.exists_cons_of_ne_nil hp'
      rfl
    | cons d ds => rw [h (List.cons_ne_nil d ds)]
  obtain ⟨r₁, hr₁, hdrop₁, hrest₁⟩ := dropWhile_isTagBlank_append hr cs
  simp only [bareTag?, Option.bind_eq_bind, hdrop₁, hfound hname hne _ hr₁ hrest₁]
  cases hname' : behind? name (cs.dropWhile isTagBlank) with
  | none => rfl
  | some ds =>
    obtain ⟨r₂, hr₂, hdrop₂, hrest₂⟩ := dropWhile_isTagBlank_append hr ds
    have hclose := hfound (p := ['%', '\x7d']) (by decide) (List.cons_ne_nil _ _)
      ((ds.dropWhile isTagBlank).drop (Spacing.ofChar (ds.dropWhile isTagBlank).head?).length) hr₂
      fun h => hrest₂ fun hnil => h (by simp [hnil])
    simp only [Option.map_some, Option.bind_some, hdrop₂, spacing_append_blank hr₂,
      drop_spacing_append, hclose]
    cases behind? ['%', '\x7d'] _ <;> rfl

lemma rawEnd?_of_allBlank : rawEnd? r = none := by
  induction r with
  | nil => rfl
  | cons b r ih =>
    obtain ⟨hb, hr⟩ := List.forall_mem_cons.1 hr
    rw [rawEnd?, ih hr]
    · rfl
    · rintro _ rfl
      exact absurd hb (by decide)

lemma rawEnd?_append_blank (cs : List Char) :
    rawEnd? (cs ++ r) = (rawEnd? cs).map fun e => { e with rest := e.rest ++ r } := by
  have hendraw : "endraw".toList.any Text.isBlank = false := by decide
  have htag (cs : List Char) := bareTag?_append_blank hr hendraw (by decide) cs
  fun_induction rawEnd? cs with
  | case1 cs before after rest =>
    next hfound =>
    rw [List.cons_append, List.cons_append, rawEnd?]
    simp only [spacing_append_blank hr, drop_spacing_append, htag]
    rw [hfound]
    rfl
  | case2 cs before hfound =>
    next ih =>
    rw [List.cons_append] at ih
    rw [List.cons_append, List.cons_append, rawEnd?]
    simp only [spacing_append_blank hr, drop_spacing_append, htag]
    rw [hfound]
    simp [ih, Function.comp_def]
  | case3 c cs hne ih =>
    have hne' : ∀ ds, c = '\x7b' → cs ++ r = '%' :: ds → False := by
      intro ds hc hds
      cases cs with
      | nil =>
        rw [List.nil_append] at hds
        exact ne_of_isBlank (hr '%' (hds ▸ List.mem_cons_self)) (by decide) rfl
      | cons d cs =>
        rw [List.cons_append, List.cons.injEq] at hds
        exact hne cs hc (by rw [hds.1])
    rw [List.cons_append, rawEnd?, ih]
    · simp [Function.comp_def]
    · exact hne'
  | case4 => exact rawEnd?_of_allBlank hr

lemma tagEnd?_append_blank (isVariable : Bool) (cs : List Char) :
    tagEnd? isVariable (cs ++ r) = (tagEnd? isVariable cs).map fun p => (p.1, p.2 ++ r) := by
  have hclose : (if isVariable then ['\x7d', '\x7d'] else ['%', '\x7d']).any Text.isBlank =
      false := by
    cases isVariable <;> decide
  simp only [tagEnd?, spacing_append_blank hr, drop_spacing_append,
    behind?_append_blank hr hclose, Option.map_map]
  rfl

/-! ### Tokens -/

lemma rawString?_of_allBlank {quote : Char} (hquote : Text.isBlank quote = false) :
    rawString? quote r = none := by
  induction r with
  | nil => rfl
  | cons b r ih =>
    obtain ⟨hb, hr⟩ := List.forall_mem_cons.1 hr
    rw [rawString?, ih hr]
    · simp [ne_of_isBlank hb hquote]
    · rintro _ _ rfl
      exact absurd hb (by decide)

lemma rawString?_append_blank {quote : Char} (hquote : Text.isBlank quote = false)
    (hescape : quote ≠ '\\') (cs : List Char) :
    rawString? quote (cs ++ r) = (rawString? quote cs).map fun p => (p.1, p.2 ++ r) := by
  fun_induction rawString? quote cs with
  | case1 => exact rawString?_of_allBlank hr hquote
  | case2 c cs ih => simp [rawString?, ih, Function.comp_def]
  | case3 c cs hne hc =>
    rw [List.cons_append, rawString?, if_pos hc]
    · rfl
    · exact fun _ _ h => absurd ((beq_iff_eq.1 hc).symm.trans h) hescape
  | case4 c cs hne hc hbackslash =>
    -- a backslash at the end of the text escapes white space and no quote
    obtain rfl := beq_iff_eq.1 hbackslash
    obtain rfl : cs = [] := by
      cases cs with
      | nil => rfl
      | cons d ds => exact absurd rfl (hne d ds rfl)
    cases r with
    | nil => simp [rawString?, hescape.symm]
    | cons b r =>
      rw [List.singleton_append, rawString?, rawString?_of_allBlank (List.forall_mem_cons.1 hr).2 hquote]
      rfl
  | case5 c cs hne hc hbackslash ih =>
    have hne' : c ≠ '\\' := by simpa using hbackslash
    rw [List.cons_append, rawString?, if_neg hc, if_neg hbackslash, ih]
    · simp [Function.comp_def]
    · exact fun _ _ h => absurd h hne'

lemma startsExponent_append_blank (cs : List Char) :
    startsExponent (cs ++ r) = startsExponent cs := by
  match cs, r, hr with
  | [], [], _ => rfl
  | [], [_], _ => rfl
  | [], b :: _ :: _, hr =>
    have hb := hr b List.mem_cons_self
    simp [startsExponent, ne_of_isBlank hb (d := 'e') (by decide),
      ne_of_isBlank hb (d := 'E') (by decide)]
  | [_], [], _ => rfl
  | [_], b :: _, hr =>
    have hb := hr b List.mem_cons_self
    simp [startsExponent, isDigit_of_isBlank hb, ne_of_isBlank hb (d := '+') (by decide),
      ne_of_isBlank hb (d := '-') (by decide)]
  | _ :: _ :: cs, r, hr =>
    have hhead := any_head?_append_blank hr (fun _ => isDigit_of_isBlank) cs
    simp only [List.cons_append, startsExponent, hhead]

lemma continuesNumber_append_blank (cs : List Char) :
    continuesNumber (cs ++ r) = continuesNumber cs := by
  rw [continuesNumber, continuesNumber, startsExponent_append_blank hr,
    any_head?_append_blank hr fun _ => isIdentStart_of_isBlank]

lemma scanDecimal_append_blank (state : NumberState) (cs : List Char) :
    scanDecimal state (cs ++ r) =
      ((scanDecimal state cs).1, (scanDecimal state cs).2.1, (scanDecimal state cs).2.2 ++ r) := by
  induction cs generalizing state with
  | nil =>
    cases r with
    | nil => rfl
    | cons b r =>
      have hb := hr b List.mem_cons_self
      have hne {d : Char} (hd : Text.isBlank d = false) : (b == d) = false :=
        beq_eq_false_iff_ne.2 (ne_of_isBlank hb hd)
      simp [scanDecimal, isDigit_of_isBlank hb, hne (d := '_') (by decide),
        hne (d := '.') (by decide), hne (d := 'e') (by decide), hne (d := 'E') (by decide),
        hne (d := '+') (by decide), hne (d := '-') (by decide)]
  | cons c cs ih =>
    simp only [List.cons_append, scanDecimal, continuesNumber_append_blank hr, ih]
    split <;> rfl

lemma baseOf_append_blank (cs : List Char) :
    baseOf (cs ++ r) = ((baseOf cs).1, (baseOf cs).2 ++ r) := by
  have hblank {b : Char} (hb : Text.isBlank b = true) (rest : List Char) :
      baseOf ('0' :: b :: rest) = (10, '0' :: b :: rest) := by
    have hne {d : Char} (hd : Text.isBlank d = false) : (b == d) = false :=
      beq_eq_false_iff_ne.2 (ne_of_isBlank hb hd)
    simp [baseOf, hne (d := 'b') (by decide), hne (d := 'B') (by decide),
      hne (d := 'o') (by decide), hne (d := 'O') (by decide), hne (d := 'x') (by decide),
      hne (d := 'X') (by decide)]
  have hother {c : Char} (hc : c ≠ '0') (rest : List Char) : baseOf (c :: rest) = (10, c :: rest) := by
    unfold baseOf
    split
    · next h => exact absurd (List.cons.inj h).1 hc
    · rfl
  match cs, r, hr with
  | [], [], _ => rfl
  | [], b :: r, hr => exact hother (ne_of_isBlank (hr b List.mem_cons_self) (by decide)) r
  | c :: cs, r, hr =>
    by_cases hc : c = '0'
    · subst hc
      match cs, r, hr with
      | [], [], _ => rfl
      | [], b :: r, hr => exact hblank (hr b List.mem_cons_self) r
      | d :: cs, r, _ =>
        simp only [List.cons_append, baseOf]
        split_ifs <;> rfl
    · rw [List.cons_append, hother hc, hother hc, List.cons_append]

lemma digitsOf_append_blank (behindDot : Bool) (base : ℕ) (cs : List Char) :
    digitsOf behindDot base (cs ++ r) = ((digitsOf behindDot base cs).1,
      (digitsOf behindDot base cs).2.1, (digitsOf behindDot base cs).2.2 ++ r) := by
  unfold digitsOf
  split
  · simp only [scanDecimal_append_blank hr]
  · have hblank (c : Char) (hc : Text.isBlank c = true) :
        (c == '_' || c.isDigit || (base == 16 && (hexDigit? c).isSome)) = false := by
      simp [ne_of_isBlank hc (d := '_') (by decide), isDigit_of_isBlank hc,
        hexDigit?_of_isBlank hc]
    obtain ⟨htake, hdrop⟩ := takeWhile_append_blank hr hblank cs
    simp only [htake, hdrop]

lemma scanNumber_append_blank (behindDot : Bool) (cs : List Char) :
    scanNumber behindDot (cs ++ r) =
      ((scanNumber behindDot cs).1, (scanNumber behindDot cs).2 ++ r) := by
  rw [scanNumber_eq, scanNumber_eq, baseOf_append_blank hr]
  simp only [digitsOf_append_blank hr]

/-- A token is read alike, or a malformed one alike refused. -/
lemma scanToken_append_blank (dotted : Bool) (c : Char) (cs : List Char) :
    (∃ cause, scanToken dotted c cs = (.malformed cause, []) ∧
        scanToken dotted c (cs ++ r) = (.malformed cause, [])) ∨
      scanToken dotted c (cs ++ r) =
        ((scanToken dotted c cs).1, (scanToken dotted c cs).2 ++ r) := by
  have hhead : (cs ++ r).head?.bind (symbol2? c) = cs.head?.bind (symbol2? c) := by
    cases cs with
    | nil =>
      cases r with
      | nil => rfl
      | cons b r => exact symbol2?_of_isBlank (hr b List.mem_cons_self) c
    | cons d cs => rfl
  simp only [scanToken, hhead]
  split
  · next s hs =>
    right
    cases cs with
    | nil => cases hs
    | cons d cs => rfl
  split
  · exact .inr rfl
  split
  · next hquote =>
    have hquote' : Text.isBlank c = false ∧ c ≠ '\\' := by
      rcases Bool.or_eq_true_iff.1 hquote with h | h <;> rw [beq_iff_eq.1 h] <;> decide
    rw [rawString?_append_blank hr hquote'.1 hquote'.2]
    cases rawString? c cs with
    | none => exact .inl ⟨.syntaxError, rfl, rfl⟩
    | some p =>
      cases hraw : unescape? none p.1 with
      | none => exact .inl ⟨.badEscape, by simp [hraw], by simp [hraw]⟩
      | some s => exact .inr (by simp [hraw])
  split
  · rw [← List.cons_append, scanNumber_append_blank hr]
    obtain ⟨t?, rest⟩ := scanNumber dotted (c :: cs)
    cases t? with
    | none => exact .inl ⟨.syntaxError, rfl, rfl⟩
    | some t => exact .inr rfl
  split
  · obtain ⟨htake, hdrop⟩ := takeWhile_append_blank hr (fun _ => isIdentChar_of_isBlank) cs
    exact .inr (by rw [htake, hdrop])
  · exact .inl ⟨.syntaxError, rfl, rfl⟩

end

end BurnRate.Expression.Lexer
