import BurnRate.Proofs.CopiedTexts
import BurnRate.Proofs.DurationText

/-!
Plain texts: pieces of text in turn with placeholders that are nothing but a name.

Rendering one puts the values in the place of the placeholders and leaves everything else as it is.
What the checks find in it are its placeholders, so they decide a plain text exactly.
-/

namespace BurnRate.Expression

open Lexer

/-! ### Plain texts -/

/-- Words that mean something else than a value of theirs. -/
def ownWords : List String :=
  ["true", "True", "false", "False", "none", "None", "not", "self"]

/-- Functions that all texts can call by name. -/
def builtinNames : List String := ["range", "dict", "namespace", "debug"]

/-- An identifier: a letter or an underscore, then these or digits. -/
def isIdent (n : String) : Bool :=
  match n.toList with
  | [] => false
  | c :: cs => isIdentStart c && cs.all isIdentChar

/-- A piece of text and the placeholder behind it. -/
structure Slot where
  text : String
  name : String
  untagged : ¬ HasTag text
  /-- The text does not join the braces of the placeholder. -/
  apart : text.toList.getLast? ≠ some '\x7b'
  ident : isIdent name = true
  free : name ∉ ownWords ++ builtinNames

def Slot.source (s : Slot) : String := s.text ++ "\x7b\x7b " ++ s.name ++ " \x7d\x7d"

structure PlainText where
  slots : List Slot
  last : String
  untagged : ¬ HasTag last

namespace PlainText

def source (p : PlainText) : String := p.slots.foldr (fun s rest => s.source ++ rest) p.last

/-- The placeholders, in order and with repetitions. -/
def names (p : PlainText) : List String := p.slots.map Slot.name

/-- The text with values in the place of the placeholders. -/
def filled (p : PlainText) (value : String → String) : String :=
  p.slots.foldr (fun s rest => s.text ++ value s.name ++ rest) p.last

end PlainText

/-- The statement that copies a piece of text, unless it is empty. -/
def copied (s : String) : List Statement := if s = "" then [] else [.copy s]

/-- What a plain text reads as. -/
def plainStatements (slots : List Slot) (last : String) : List Statement :=
  slots.flatMap (fun s => copied s.text ++ [.emit (.var s.name)]) ++ copied last

/-- The token of a piece of text, unless it is empty. -/
def pieceTokens (s : String) : List Token := if s = "" then [] else [.data s]

def plainTokens (slots : List Slot) (last : String) : List Token :=
  slots.flatMap (fun s =>
    pieceTokens s.text ++ [.openVariable, .ident s.name, .closeVariable]) ++ pieceTokens last

/-! ### Tokens -/

namespace Lexer

lemma map_token_dataToken (s : String) (line : ℕ) :
    (dataToken s.toList line).map (·.token) = pieceTokens s := by
  unfold dataToken pieceTokens
  by_cases hs : s = ""
  · simp [hs]
  · simp [hs]

/-- Two braces behind a text that has none at its end start a tag. -/
lemma split?_append_braces {cs : List Char} (hcs : split? cs = none)
    (hlast : cs.getLast? ≠ some '\x7b') (rest : List Char) :
    split? (cs ++ '\x7b' :: '\x7b' :: ' ' :: rest) =
      some ⟨cs, .variable, .unmarked, ' ' :: rest⟩ := by
  fun_induction split? cs with
  | case1 c cs marker hmarker => cases hcs
  | case2 c cs hmarker ih =>
    have hrest := ih (Option.map_eq_none_iff.1 hcs) (by simpa using hlast)
    rw [List.cons_append, List.cons_append, split?, hmarker]
    rw [List.cons_append] at hrest
    simp [hrest]
  | case3 c cs hne ih =>
    have hc : c ≠ '\x7b' := by
      rintro rfl
      cases cs with
      | nil => simp at hlast
      | cons d ds => exact hne d ds rfl rfl
    have hend : cs.getLast? ≠ some '\x7b' := by
      cases cs with
      | nil => simp
      | cons d ds => simpa using hlast
    rw [List.cons_append, split?_cons_of_ne hc, ih (Option.map_eq_none_iff.1 hcs) hend]
    rfl
  | case4 => rfl

lemma takeWhile_ident {cs : List Char} (hcs : cs.all isIdentChar = true) (rest : List Char) :
    (cs ++ ' ' :: rest).takeWhile isIdentChar = cs ∧
      (cs ++ ' ' :: rest).dropWhile isIdentChar = ' ' :: rest := by
  have hall := List.all_eq_true.1 hcs
  have hstop : isIdentChar ' ' = false := by decide
  constructor
  · rw [List.takeWhile_append_of_pos hall, List.takeWhile_cons, hstop]
    simp
  · rw [List.dropWhile_append_of_pos hall, List.dropWhile_cons, hstop]
    simp

lemma isDigit_of_isIdentStart {c : Char} (hc : isIdentStart c = true) : c.isDigit = false := by
  rw [Bool.eq_false_iff]
  intro hdigit
  have hnine : c.toNat ≤ 57 := (between_of_isDigit hdigit).2
  rcases Bool.or_eq_true_iff.1 hc with halpha | hc
  · rcases Bool.or_eq_true_iff.1 halpha with h | h
    · have hletter : 65 ≤ c.toNat := (between_of_isUpper h).1
      omega
    · have hletter : 97 ≤ c.toNat := (between_of_isLower h).1
      omega
  · rw [beq_iff_eq.1 hc] at hdigit
    exact absurd hdigit (by decide)

/-- A character that starts an identifier starts no other token. -/
lemma scanToken_ident {c : Char} (hc : isIdentStart c = true) {cs : List Char}
    (hcs : cs.all isIdentChar = true) (dotted : Bool) (rest : List Char) :
    scanToken dotted c (cs ++ ' ' :: rest) = (.ident (String.ofList (c :: cs)), ' ' :: rest) := by
  have hsymbol2 : (cs ++ ' ' :: rest).head?.bind (symbol2? c) = none := by
    rw [Option.bind_eq_none_iff]
    intro d _
    unfold symbol2?
    split <;> first | rfl | exact absurd hc (by decide)
  have hsymbol : symbol? c = none := by
    unfold symbol?
    split <;> first | rfl | exact absurd hc (by decide)
  have hquote : (c == '\'' || c == '"') = false := by
    rw [Bool.or_eq_false_iff, beq_eq_false_iff_ne, beq_eq_false_iff_ne]
    constructor <;> (rintro rfl; exact absurd hc (by decide))
  have hdigit : c.isDigit = false := isDigit_of_isIdentStart hc
  obtain ⟨htake, hdrop⟩ := takeWhile_ident hcs rest
  simp only [scanToken, hsymbol2, hsymbol, hquote, hdigit, hc, htake, hdrop]
  simp

lemma tagEnd?_ident {c : Char} (hc : isIdentStart c = true) (isVariable : Bool) (cs : List Char) :
    tagEnd? isVariable (c :: cs) = none := by
  have hne (d : Char) (hd : isIdentStart d = false) : (some c == some d) = false := by
    rw [beq_eq_false_iff_ne]
    rintro h
    rw [Option.some.inj h, hd] at hc
    cases hc
  have hspacing : Spacing.ofChar (some c) = .unmarked := by
    simp [Spacing.ofChar, hne '-' (by decide), hne '+' (by decide)]
  have hclose (d : Char) (hd : isIdentStart d = false) (ds : List Char) :
      behind? (d :: ds) (c :: cs) = none := by
    have hdc : (d == c) = false := by
      rw [beq_eq_false_iff_ne]
      rintro rfl
      rw [hd] at hc
      cases hc
    simp [behind?, hdc]
  cases isVariable
  · simp [tagEnd?, hspacing, Spacing.length, hclose '%' (by decide)]
  · simp [tagEnd?, hspacing, Spacing.length, hclose '\x7d' (by decide)]

lemma isTagBlank_of_isIdentStart {c : Char} (hc : isIdentStart c = true) :
    isTagBlank c = false := by
  unfold isTagBlank
  simp only [Bool.or_eq_false_iff, beq_eq_false_iff_ne]
  refine ⟨⟨⟨⟨?_, ?_⟩, ?_⟩, ?_⟩, ?_⟩ <;> (rintro rfl; exact absurd hc (by decide))

/-- A placeholder is read as its name between braces. -/
lemma scanTag_ident {n : String} (hn : isIdent n = true) (fuel line : ℕ) (rest : List Char) :
    scanTag (fuel + 2) true 0 false line (' ' :: (n.toList ++ ' ' :: '\x7d' :: '\x7d' :: rest)) =
      ⟨.ident n, line⟩ :: ⟨.closeVariable, line⟩ :: scanData fuel false line rest := by
  unfold isIdent at hn
  split at hn
  · cases hn
  · next c cs hcs =>
    rw [Bool.and_eq_true] at hn
    have hname : String.ofList (c :: cs) = n := by rw [← hcs, String.ofList_toList]
    rw [hcs, List.cons_append]
    simp only [scanTag, List.takeWhile_cons, List.dropWhile_cons, show isTagBlank ' ' = true from rfl,
      isTagBlank_of_isIdentStart hn.1, if_true, Bool.false_eq_true, if_false, tagEnd?_ident hn.1,
      scanToken_ident hn.1 hn.2, hname]
    rfl

/-- The tokens of a piece of text, of the placeholder behind it and of the rest. -/
lemma scanData_slot (s : Slot) (fuel line : ℕ) (rest : List Char) :
    ∃ line', (scanData (fuel + 3) false line (s.source.toList ++ rest)).map (·.token) =
      pieceTokens s.text ++ [.openVariable, .ident s.name, .closeVariable] ++
        (scanData fuel false line' rest).map (·.token) := by
  have hsplit : split? (s.source.toList ++ rest) = some ⟨s.text.toList, .variable, .unmarked,
      ' ' :: (s.name.toList ++ ' ' :: '\x7d' :: '\x7d' :: rest)⟩ := by
    have htext : split? s.text.toList = none := by
      rw [← Option.not_isSome_iff_eq_none, ← hasTag_iff]
      exact s.untagged
    rw [← split?_append_braces htext s.apart]
    simp [Slot.source]
  refine ⟨line + lineBreaks [] + lineBreaks s.text.toList, ?_⟩
  simp only [scanData, Bool.false_eq_true, if_false, List.length_nil, List.drop_zero, hsplit,
    scanTag_ident s.ident]
  rw [if_neg (by decide), List.map_append, map_token_dataToken, List.append_assoc]
  rfl

/-- A plain text is read piece by piece. -/
lemma scanData_plain (slots : List Slot) {last : String} (hlast : ¬ HasTag last) (fuel line : ℕ) :
    (scanData (fuel + 3 * slots.length + 1) false line
      (slots.foldr (fun s rest => s.source ++ rest) last).toList).map (·.token) =
      plainTokens slots last := by
  induction slots generalizing line with
  | nil =>
    have hsplit : split? last.toList = none := by
      rwa [hasTag_iff, Option.not_isSome_iff_eq_none] at hlast
    simp [scanData, hsplit, plainTokens, map_token_dataToken]
  | cons s slots ih =>
    obtain ⟨line', hslot⟩ := scanData_slot s (fuel + 3 * slots.length + 1) line
      (slots.foldr (fun s rest => s.source ++ rest) last).toList
    rw [List.foldr_cons, String.toList_append, List.length_cons, Nat.mul_succ,
      show fuel + (3 * slots.length + 3) + 1 = fuel + 3 * slots.length + 1 + 3 by omega, hslot, ih]
    simp [plainTokens]

lemma length_foldr_source (slots : List Slot) (last : String) :
    6 * slots.length ≤ (slots.foldr (fun s rest => s.source ++ rest) last).toList.length := by
  induction slots with
  | nil => exact Nat.zero_le _
  | cons s slots ih =>
    have hsource : s.source.toList.length = 3 + s.text.toList.length + s.name.toList.length + 3 := by
      have hopen : "\x7b\x7b ".toList.length = 3 := rfl
      have hclose : " \x7d\x7d".toList.length = 3 := rfl
      simp only [Slot.source, String.toList_append, List.length_append]
      omega
    rw [List.foldr_cons, String.toList_append, List.length_append, List.length_cons, hsource]
    omega

lemma map_token_tokens (p : PlainText) :
    (tokens p.source).map (·.token) = plainTokens p.slots p.last := by
  have hlength := length_foldr_source p.slots p.last
  rw [← scanData_plain p.slots p.untagged (2 * p.source.toList.length + 1 - 3 * p.slots.length) 1,
    show 2 * p.source.toList.length + 1 - 3 * p.slots.length + 3 * p.slots.length + 1 =
      2 * p.source.toList.length + 2 by unfold PlainText.source; omega]
  rfl

end Lexer

/-! ### Statements -/

namespace Parser

/-- The parser answers `a` and leaves another state. -/
def Answers {α : Type} (p : Parse α) (st : State) (a : α) (st' : State) : Prop :=
  p.run st = .ok (a, st')

section

variable {α β : Type} {st st₁ st₂ : State} {n : String} {l : ℕ} {t : Located} {ts : List Located}

lemma Answers.bind {p : Parse α} {f : α → Parse β} {a : α} {b : β} (hp : Answers p st a st₁)
    (hf : Answers (f a) st₁ b st₂) : Answers (p >>= f) st b st₂ := by
  rw [Answers, StateT.run_bind, hp]
  exact hf

lemma Answers.run'_bind {p : Parse α} {a : α} (hp : Answers p st a st₁) (f : α → Parse β) :
    (p >>= f).run' st = (f a).run' st₁ := by
  rw [StateT.run'_eq, StateT.run_bind, hp]
  rfl

lemma answers_peek? (hst : st.tokens = t :: ts) (ht : ∀ cause, t.token ≠ .malformed cause) :
    Answers peek? st (some t.token) st := by
  obtain ⟨tokens, line, depth, blocks, inRoutine⟩ := st
  obtain ⟨token, l⟩ := t
  cases hst
  cases token with
  | malformed cause => exact absurd rfl (ht cause)
  | _ => rfl

lemma answers_take? (hst : st.tokens = t :: ts) (ht : ∀ cause, t.token ≠ .malformed cause) :
    Answers take? st (some t.token) { st with tokens := ts, line := t.line } := by
  refine (answers_peek? hst ht).bind ?_
  obtain ⟨tokens, line, depth, blocks, inRoutine⟩ := st
  cases hst
  rfl

/-- A token that is not accepted stays. -/
lemma answers_accept (hst : st.tokens = t :: ts) (ht : ∀ cause, t.token ≠ .malformed cause)
    {p : Option Token → Bool} (hp : p (some t.token) = false) : Answers (accept p) st false st := by
  refine (answers_peek? hst ht).bind ?_
  rw [hp]
  rfl

lemma answers_deeper {p : Parse α} {a : α} (hdepth : st.depth < maxDepth)
    (hp : Answers p { st with depth := st.depth + 1 } a { st₁ with depth := st₁.depth + 1 }) :
    Answers (deeper p) st a st₁ := by
  have hget : Answers get st st st := rfl
  have hmodify : Answers (modify fun s : State => { s with depth := s.depth + 1 }) st ()
      { st with depth := st.depth + 1 } := rfl
  refine hget.bind ?_
  rw [if_neg (Nat.not_le.2 hdepth)]
  exact hmodify.bind (hp.bind rfl)

lemma answers_primary (hn : n ∉ ownWords) (hst : st.tokens = ⟨.ident n, l⟩ :: ts) (fuel : ℕ) :
    Answers (primary (fuel + 1)) st (.var n) { st with tokens := ts, line := l } := by
  simp only [ownWords, List.mem_cons, not_or] at hn
  obtain ⟨_, _, _, _, _, _, -⟩ := hn
  rw [primary]
  refine (answers_take? hst (by simp)).bind ?_
  simp only
  rfl

lemma answers_negation (hn : n ∉ ownWords) (hst : st.tokens = ⟨.ident n, l⟩ :: ts)
    (hdepth : st.depth < maxDepth) (fuel : ℕ) :
    Answers (negation (fuel + 2)) st (.var n) { st with tokens := ts, line := l } := by
  have hprimary : Answers (primary (fuel + 1)) { st with depth := st.depth + 1 } (.var n)
      { st with tokens := ts, line := l, depth := st.depth + 1 } := by
    refine answers_primary hn ?_ fuel
    exact hst
  have hdeeper : Answers (deeper (primary (fuel + 1))) st (.var n)
      { st with tokens := ts, line := l } := answers_deeper hdepth hprimary
  rw [negation]
  exact (answers_accept hst nofun rfl).bind hdeeper

/-! Behind a name that is all there is in a placeholder, nothing is read but its end. -/

variable {l' : ℕ} (hend : st₁.tokens = ⟨.closeVariable, l'⟩ :: ts)

include hend

lemma answers_operands (lv : Level) (e : Expr) (fuel : ℕ) :
    Answers (operands (fuel + 1) lv e) st₁ e st₁ := by
  rw [operands]
  refine (answers_peek? hend nofun).bind ?_
  cases lv <;> rfl

lemma answers_comparisons (fuel : ℕ) : Answers (comparisons (fuel + 1) []) st₁ [] st₁ := by
  rw [comparisons]
  exact (answers_peek? hend nofun).bind ((answers_accept hend nofun rfl).bind rfl)

lemma answers_postfixes (e : Expr) (fuel : ℕ) : Answers (postfixes (fuel + 1) e) st₁ e st₁ := by
  rw [postfixes]
  exact (answers_peek? hend nofun).bind rfl

lemma answers_filters (e : Expr) (fuel : ℕ) : Answers (filters (fuel + 1) e) st₁ e st₁ := by
  rw [filters]
  exact (answers_peek? hend nofun).bind rfl

lemma answers_choice (e : Expr) (fuel : ℕ) : Answers (choice (fuel + 1) e) st₁ e st₁ := by
  rw [choice]
  exact (answers_accept hend nofun rfl).bind rfl

/-- A level of binary operators leaves a value as the next level reads it. -/
lemma answers_level {e : Expr} {lv : Level} (hlv : lv ∉ [.negation, .comparison, .unary])
    {fuel : ℕ} (h : Answers (level (fuel + 1) lv.tighter) st e st₁) :
    Answers (level (fuel + 2) lv) st e st₁ := by
  cases lv <;> first
    | exact h.bind (answers_operands hend _ e fuel)
    | exact absurd hlv (by decide)

lemma answers_disjunction (hn : n ∉ ownWords) (hst : st.tokens = ⟨.ident n, l⟩ :: st₁.tokens)
    (hst₁ : st₁ = { st with tokens := st₁.tokens, line := l }) (hdepth : st.depth < maxDepth)
    (fuel : ℕ) : Answers (level (fuel + 11) .disjunction) st (.var n) st₁ := by
  have hname : Answers (negation (fuel + 2)) st (.var n) st₁ := by
    rw [hst₁]
    exact answers_negation hn hst hdepth fuel
  have hunary : Answers (level (fuel + 3) .unary) st (.var n) st₁ := by
    rw [level]
    exact hname.bind ((answers_postfixes hend _ _).bind (answers_filters hend _ _))
  have hsum : Answers (level (fuel + 7) .sum) st (.var n) st₁ :=
    answers_level hend (by decide) (answers_level hend (by decide)
      (answers_level hend (by decide) (answers_level hend (by decide) hunary)))
  have hcomparison : Answers (level (fuel + 8) .comparison) st (.var n) st₁ := by
    rw [level]
    exact hsum.bind ((answers_comparisons hend _).bind rfl)
  have hnot : isWord "not" (some (.ident n)) = false := by
    refine beq_eq_false_iff_ne.2 ?_
    rintro rfl
    exact hn (by decide)
  have hnegation : Answers (level (fuel + 9) .negation) st (.var n) st₁ := by
    rw [level]
    exact (answers_accept hst nofun hnot).bind hcomparison
  exact answers_level hend (by decide) (answers_level hend (by decide) hnegation)

/-- A name in a placeholder is read as a variable. -/
lemma answers_expr (hn : n ∉ ownWords) (hst : st.tokens = ⟨.ident n, l⟩ :: st₁.tokens)
    (hst₁ : st₁ = { st with tokens := st₁.tokens, line := l }) (hdepth : st.depth + 1 < maxDepth)
    (fuel : ℕ) : Answers (expr (fuel + 12)) st (.var n) st₁ := by
  have hst' : ({ st with depth := st.depth + 1 } : State).tokens = ⟨.ident n, l⟩ :: st₁.tokens :=
    hst
  have hend' : ({ st₁ with depth := st₁.depth + 1 } : State).tokens = ⟨.closeVariable, l'⟩ :: ts :=
    hend
  have hlevel : Answers (level (fuel + 11) .disjunction) { st with depth := st.depth + 1 } (.var n)
      { st₁ with depth := st₁.depth + 1 } := by
    refine answers_disjunction hend' hn hst' ?_ hdepth fuel
    rw [hst₁]
  rw [expr]
  exact answers_deeper (Nat.lt_of_succ_lt hdepth) (hlevel.bind (answers_choice hend' _ _))

end

/-- One placeholder. -/
lemma run'_statements_slot {st : State} {n : String} {l₁ l₂ l₃ : ℕ} {ts : List Located}
    (hn : n ∉ ownWords)
    (hst : st.tokens = ⟨.openVariable, l₁⟩ :: ⟨.ident n, l₂⟩ :: ⟨.closeVariable, l₃⟩ :: ts)
    (hdepth : st.depth + 1 < maxDepth) (fuel : ℕ) (ends : List String) (before : List Statement) :
    (statements (fuel + 13) ends before).run' st =
      (statements (fuel + 12) ends (.emit (.var n) :: before)).run'
        { st with tokens := ts, line := l₃ } := by
  let st₀ : State := { st with tokens := ⟨.ident n, l₂⟩ :: ⟨.closeVariable, l₃⟩ :: ts, line := l₁ }
  let st₁ : State := { st with tokens := ⟨.closeVariable, l₃⟩ :: ts, line := l₂ }
  have hst₀ : st₀.tokens = ⟨.ident n, l₂⟩ :: st₁.tokens := rfl
  have hst₁ : st₁.tokens = ⟨.closeVariable, l₃⟩ :: ts := rfl
  have hexpr : Answers (expr (fuel + 12)) st₀ (.var n) st₁ :=
    answers_expr hst₁ hn hst₀ rfl hdepth fuel
  have hclose : Answers take? st₁ (some .closeVariable) { st with tokens := ts, line := l₃ } :=
    answers_take? hst₁ (by simp)
  rw [statements, (answers_take? hst (by simp)).run'_bind]
  exact (hexpr.run'_bind _).trans (hclose.run'_bind _)

/-- One piece of text; if it is empty, nothing is read. -/
lemma run'_statements_piece {s : String} {us ts : List Located}
    (hus : us.map (·.token) = pieceTokens s) {st : State} (hst : st.tokens = us ++ ts) (fuel : ℕ)
    (ends : List String) (before : List Statement) :
    ∃ fuel' line, fuel ≤ fuel' ∧ (statements (fuel + 1) ends before).run' st =
      (statements fuel' ends ((copied s).reverse ++ before)).run' { st with tokens := ts, line } := by
  unfold pieceTokens at hus
  unfold copied
  split at hus
  · next hs =>
    rw [List.map_eq_nil_iff] at hus
    subst hus
    refine ⟨fuel + 1, st.line, Nat.le_succ _, ?_⟩
    rw [if_pos hs, ← (show st.tokens = ts from hst)]
    rfl
  · next hs =>
    obtain ⟨⟨t, l⟩, hu, ht⟩ := List.map_eq_singleton_iff.1 hus
    cases ht
    subst hu
    refine ⟨fuel, l, le_rfl, ?_⟩
    rw [if_neg hs, statements, (answers_take? hst (by simp)).run'_bind]
    rfl

lemma run'_statements_end {st : State} (hst : st.tokens = []) (fuel : ℕ) (ends : List String)
    (before : List Statement) :
    (statements (fuel + 1) ends before).run' st = .ok before.reverse := by
  obtain ⟨tokens, line, depth, blocks, inRoutine⟩ := st
  cases hst
  rfl

/-- A plain text is parsed piece by piece. -/
lemma run'_statements_plain (slots : List Slot) (last : String) {fuel : ℕ}
    (hfuel : 2 * slots.length + 16 ≤ fuel) (before : List Statement) {st : State}
    (hst : st.tokens.map (·.token) = plainTokens slots last) (hdepth : st.depth = 0) :
    (statements fuel [] before).run' st = .ok (before.reverse ++ plainStatements slots last) := by
  induction slots generalizing fuel before st with
  | nil =>
    obtain ⟨fuel, rfl⟩ : ∃ k, fuel = k + 2 := ⟨fuel - 2, by simp at hfuel; omega⟩
    obtain ⟨fuel', line, hle, hrun⟩ :=
      run'_statements_piece hst (List.append_nil st.tokens).symm (fuel + 1) [] before
    obtain ⟨fuel', rfl⟩ : ∃ k, fuel' = k + 1 := ⟨fuel' - 1, by omega⟩
    rw [hrun, run'_statements_end rfl, List.reverse_append, List.reverse_reverse]
    rfl
  | cons s slots ih =>
    rw [List.length_cons] at hfuel
    obtain ⟨fuel, rfl⟩ : ∃ k, fuel = k + 15 := ⟨fuel - 15, by omega⟩
    have htokens : plainTokens (s :: slots) last = pieceTokens s.text ++
        (.openVariable :: .ident s.name :: .closeVariable :: plainTokens slots last) := by
      simp [plainTokens]
    rw [htokens] at hst
    obtain ⟨us, vs, hsplit, hus, hvs⟩ := List.map_eq_append_iff.1 hst
    obtain ⟨⟨t₁, l₁⟩, vs₁, rfl, h₁, hvs₁⟩ := List.map_eq_cons_iff.1 hvs
    obtain ⟨⟨t₂, l₂⟩, vs₂, rfl, h₂, hvs₂⟩ := List.map_eq_cons_iff.1 hvs₁
    obtain ⟨⟨t₃, l₃⟩, ws, rfl, h₃, hws⟩ := List.map_eq_cons_iff.1 hvs₂
    cases h₁
    cases h₂
    cases h₃
    obtain ⟨fuel', line, hle, hrun⟩ := run'_statements_piece hus hsplit (fuel + 14) [] before
    obtain ⟨fuel', rfl⟩ : ∃ k, fuel' = k + 13 := ⟨fuel' - 13, by omega⟩
    have hn : s.name ∉ ownWords := fun h => s.free (List.mem_append_left _ h)
    have hroom : st.depth + 1 < maxDepth := by simp [hdepth, maxDepth]
    have hslot := run'_statements_slot hn (rfl : ({ st with
        tokens := ⟨.openVariable, l₁⟩ :: ⟨.ident s.name, l₂⟩ :: ⟨.closeVariable, l₃⟩ :: ws,
        line } : State).tokens = _) hroom fuel' [] ((copied s.text).reverse ++ before)
    have hrest : (statements (fuel' + 12) []
        (.emit (.var s.name) :: ((copied s.text).reverse ++ before))).run'
          { st with tokens := ws, line := l₃ } =
        .ok ((.emit (.var s.name) :: ((copied s.text).reverse ++ before)).reverse ++
          plainStatements slots last) := by
      refine ih (by omega) _ ?_ hdepth
      exact hws
    rw [hrun]
    refine hslot.trans (hrest.trans ?_)
    simp [plainStatements]

end Parser

lemma le_length_plainTokens (slots : List Slot) (last : String) :
    3 * slots.length ≤ (plainTokens slots last).length := by
  induction slots with
  | nil => exact Nat.zero_le _
  | cons s slots ih =>
    simp only [plainTokens, List.flatMap_cons, List.length_append, List.length_cons,
      List.length_nil] at ih ⊢
    omega

lemma parse_plain (p : PlainText) : parse p.source = .ok (plainStatements p.slots p.last) := by
  have htokens := map_token_tokens p
  have hlength := congrArg List.length htokens
  rw [List.length_map] at hlength
  have hcount := le_length_plainTokens p.slots p.last
  exact Parser.run'_statements_plain p.slots p.last (by omega) [] htokens rfl

end BurnRate.Expression
