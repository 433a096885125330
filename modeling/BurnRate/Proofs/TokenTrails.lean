import BurnRate.Proofs.TrailingBlanks
import Mathlib.Data.List.TakeWhile

/-!
The tokens of a text with white space around it, next to those of the text.

They are the same further down, up to the first piece of text and to what the white space at the end
adds: it extends the last piece of text, is one of its own, or is left in a tag without an end.
-/

namespace BurnRate.Expression

/-- A tag is open behind the token. -/
def Token.inTag : Token → Bool
  | .data _ | .closeVariable | .closeBlock => false
  | _ => true

/-- The token as it stands some lines further down. -/
def Located.down (k : ℕ) (t : Located) : Located := ⟨t.token, t.line + k⟩

/-- Tokens of a text, from inside of a tag or from outside on, and those of the same text `k` lines
further down with white space `r` behind it. Outside of tags, a text is not malformed but by its
syntax. -/
inductive Trails (k : ℕ) (r : String) : Bool → List Located → List Located → Prop
  | same {inTag : Bool} : Trails k r inTag [] []
  | added {l : ℕ} : Trails k r false [] [⟨.data r, l⟩]
  | grown {s : String} {l l' : ℕ} : Trails k r false [⟨.data s, l⟩] [⟨.data (s ++ r), l'⟩]
  /-- White space that is no blank of a tag is malformed there. -/
  | torn {l : ℕ} : Trails k r true [] [⟨.malformed .syntaxError, l⟩]
  | cons {inTag : Bool} {t : Located} {ts us : List Located}
      (ht : inTag = false → ∀ c, t.token = .malformed c → c = .syntaxError)
      (h : Trails k r t.token.inTag ts us) : Trails k r inTag (t :: ts) (t.down k :: us)

lemma Trails.length_le {k : ℕ} {r : String} {inTag : Bool} {ts us : List Located}
    (h : Trails k r inTag ts us) : ts.length ≤ us.length ∧ us.length ≤ ts.length + 1 := by
  induction h with
  | cons ht h ih => exact ⟨Nat.succ_le_succ ih.1, Nat.succ_le_succ ih.2⟩
  | _ => simp

namespace Lexer

/-! ### The tokens behind the start of a tag -/

/-- The tokens of a tag behind its marker, and those of what follows. -/
def tagTokens (fuel : ℕ) (line : ℕ) (marker : Marker) (cs : List Char) : List Located :=
  match marker with
  | .variable => ⟨.openVariable, line⟩ :: scanTag fuel true 0 false line cs
  | .comment =>
    match around? '#' '\x7d' cs with
    | none => [⟨.malformed .syntaxError, line⟩]
    | some (comment, rest) =>
      scanData fuel (comment.getLast? == some '-') (line + lineBreaks comment) rest
  | .block =>
    match bareTag? "raw".toList cs with
    | none => ⟨.openBlock, line⟩ :: scanTag fuel false 0 false line cs
    | some (spacing, raw) =>
      let rawLine := line + (lineBreaks cs - lineBreaks raw)
      match rawEnd? raw with
      | none => [⟨.malformed .syntaxError, rawLine⟩]
      | some r =>
        let text := if spacing == .remove then Text.trimStart r.text else r.text
        let text := if r.before == .remove then Text.trimEnd text else text
        ⟨.data (String.ofList text), rawLine⟩ ::
          scanData fuel (r.after == .remove)
            (rawLine + (lineBreaks raw - lineBreaks r.rest)) r.rest

lemma scanData_false {fuel line : ℕ} {cs : List Char} :
    scanData (fuel + 1) false line cs =
      match split? cs with
      | none => dataToken cs line
      | some s =>
        dataToken (if s.spacing == .remove then Text.trimEnd s.before else s.before) line ++
          tagTokens fuel (line + lineBreaks s.before) s.marker s.rest := by
  simp only [scanData, Bool.false_eq_true, if_false, List.length_nil, List.drop_zero]
  rfl

/-- White space that is removed only counts for the lines. -/
lemma scanData_true {fuel line : ℕ} {cs : List Char} :
    scanData (fuel + 1) true line cs =
      scanData (fuel + 1) false (line + lineBreaks (cs.takeWhile Text.isBlank))
        (cs.dropWhile Text.isBlank) := by
  have hdrop : cs.drop (cs.takeWhile Text.isBlank).length = cs.dropWhile Text.isBlank :=
    (congrArg _ List.takeWhile_append_dropWhile.symm).trans List.drop_left
  rw [scanData_false]
  simp only [scanData, if_true, hdrop]
  rfl

lemma length_lt_of_tagEnd? {isVariable : Bool} {cs rest : List Char} {spacing : Spacing}
    (h : tagEnd? isVariable cs = some (spacing, rest)) : rest.length < cs.length := by
  obtain ⟨rest', hclose, heq⟩ := Option.map_eq_some_iff.1 h
  obtain rfl := (Prod.mk.inj heq).2
  have hbehind {p : List Char} {a : Char} {ds : List Char} (h : behind? (a :: p) ds = some rest') :
      rest'.length < ds.length := by
    cases ds with
    | nil => cases h
    | cons d ds =>
      rw [behind?] at h
      split at h
      · exact Nat.lt_succ_of_le (length_behind? h)
      · cases h
  have hdrop : (cs.drop (Spacing.ofChar cs.head?).length).length ≤ cs.length := by simp
  cases isVariable
  · exact (hbehind hclose).trans_le hdrop
  · exact (hbehind hclose).trans_le hdrop

/-- Only text and the ends of tags leave a tag. -/
lemma inTag_scanToken (dotted : Bool) (c : Char) (cs : List Char) :
    (scanToken dotted c cs).1.inTag = true := by
  have hnumber (cs : List Char) : ∀ t ∈ (scanNumber dotted cs).1, t.inTag = true := by
    intro t ht
    simp only [scanNumber_eq, numberOf] at ht
    split at ht
    · cases ht
    split at ht
    all_goals
      obtain ⟨n, -, rfl⟩ := Option.map_eq_some_iff.1 ht
      rfl
  unfold scanToken
  split
  · rfl
  split
  · rfl
  split
  · split
    · rfl
    · split <;> rfl
  split
  · split
    · next t rest heq => exact hnumber (c :: cs) t (by rw [heq]; rfl)
    · rfl
  split <;> rfl

/-! ### White space behind -/

section

variable {r : List Char} {k : ℕ}

lemma trails_dataToken (cs : List Char) (l l' : ℕ) :
    Trails k (String.ofList r) false (dataToken cs l) (dataToken (cs ++ r) l') := by
  unfold dataToken
  cases cs with
  | nil =>
    cases r with
    | nil => exact .same
    | cons b r => exact .added
  | cons c cs =>
    rw [String.ofList_append]
    exact .grown

lemma trails_dataToken_append (d : List Char) (l : ℕ) {ts us : List Located}
    (h : Trails k (String.ofList r) false ts us) :
    Trails k (String.ofList r) false (dataToken d l ++ ts) (dataToken d (l + k) ++ us) := by
  unfold dataToken
  split
  · exact h
  · exact .cons nofun h

/-- White space behind changes nothing but the end of the tokens, for texts shorter than `n`, from
outside of a tag on and from inside. -/
def ScansAlike (k : ℕ) (r : List Char) (n : ℕ) : Prop :=
  (∀ (cs : List Char) (fuel fuel' line : ℕ) (trim : Bool), cs.length < n → cs.length < fuel →
      cs.length + r.length < fuel' →
      Trails k (String.ofList r) false (scanData fuel trim line cs)
        (scanData fuel' trim (line + k) (cs ++ r))) ∧
    ∀ (cs : List Char) (fuel fuel' line : ℕ) (isVariable dotted : Bool) (nesting : ℤ),
      cs.length < n → cs.length < fuel → cs.length + r.length < fuel' →
      Trails k (String.ofList r) true (scanTag fuel isVariable nesting dotted line cs)
        (scanTag fuel' isVariable nesting dotted (line + k) (cs ++ r))

lemma lineBreaks_append (cs ds : List Char) :
    lineBreaks (cs ++ ds) = lineBreaks cs + lineBreaks ds :=
  List.count_append

/-- Behind a token in a tag, the rest of the tag follows. -/
lemma trails_token {n : ℕ} (ih : ScansAlike k r n) {t : Token} (ht : t.inTag = true)
    {rest : List Char} {fuel fuel' : ℕ} (hn : rest.length < n) (hfuel : rest.length < fuel)
    (hfuel' : rest.length + r.length < fuel') (l breaks : ℕ) (isVariable : Bool) (nesting : ℤ)
    (dotted : Bool) :
    Trails k (String.ofList r) true
      (⟨t, l⟩ :: scanTag fuel isVariable nesting dotted (l + breaks) rest)
      (⟨t, l + k⟩ :: scanTag fuel' isVariable nesting dotted (l + k + breaks) (rest ++ r)) := by
  refine .cons nofun ?_
  rw [Nat.add_right_comm, show (Located.mk t l).token.inTag = true from ht]
  exact ih.2 rest fuel fuel' _ _ _ _ hn hfuel hfuel'

variable (hr : ∀ c ∈ r, Text.isBlank c = true)

include hr

lemma trails_tagTokens {n : ℕ} (ih : ScansAlike k r n) (marker : Marker) {cs : List Char}
    {fuel fuel' line : ℕ} (hn : cs.length < n) (hfuel : cs.length < fuel)
    (hfuel' : cs.length + r.length < fuel') :
    Trails k (String.ofList r) false (tagTokens fuel line marker cs)
      (tagTokens fuel' (line + k) marker (cs ++ r)) := by
  have hmalformed {l : ℕ} : Trails k (String.ofList r) false [⟨.malformed .syntaxError, l⟩]
      [⟨.malformed .syntaxError, l + k⟩] :=
    .cons (fun _ _ h => (Token.malformed.inj h).symm) .same
  match marker with
  | .variable => exact .cons (by simp) (ih.2 cs fuel fuel' line true false 0 hn hfuel hfuel')
  | .comment =>
    simp only [tagTokens, around?_append_blank hr (a := '#') (b := '\x7d') (by decide)]
    cases hend : around? '#' '\x7d' cs with
    | none => exact hmalformed
    | some p =>
      have hlength := length_around? hend
      have hrest := ih.1 p.2 fuel fuel' (line + lineBreaks p.1) (p.1.getLast? == some '-')
        (by omega) (by omega) (by omega)
      rwa [Nat.add_right_comm] at hrest
  | .block =>
    have hraw : bareTag? "raw".toList (cs ++ r) =
        (bareTag? "raw".toList cs).map fun p => (p.1, p.2 ++ r) :=
      bareTag?_append_blank hr (by decide) (by decide) cs
    simp only [tagTokens, hraw]
    cases hname : bareTag? "raw".toList cs with
    | none => exact .cons (by simp) (ih.2 cs fuel fuel' line false false 0 hn hfuel hfuel')
    | some p =>
      obtain ⟨spacing, raw⟩ := p
      -- white space at the end counts on both sides of a difference of lines
      have hline : line + k + (lineBreaks (cs ++ r) - lineBreaks (raw ++ r)) =
          line + (lineBreaks cs - lineBreaks raw) + k := by
        rw [lineBreaks_append, lineBreaks_append]
        omega
      simp only [Option.map_some, rawEnd?_append_blank hr, hline]
      cases hend : rawEnd? raw with
      | none => exact hmalformed
      | some e =>
        have hraw := length_bareTag? hname
        have hrest := length_rawEnd? hend
        have hline' (l : ℕ) : l + k + (lineBreaks (raw ++ r) - lineBreaks (e.rest ++ r)) =
            l + (lineBreaks raw - lineBreaks e.rest) + k := by
          rw [lineBreaks_append, lineBreaks_append]
          omega
        simp only [Option.map_some, hline']
        exact .cons (by simp) (ih.1 e.rest fuel fuel' _ _ (by omega) (by omega) (by omega))

lemma trails_scanData_false {n : ℕ} (ih : ScansAlike k r n) {cs : List Char} {fuel fuel' line : ℕ}
    (hn : cs.length ≤ n) (hfuel : cs.length ≤ fuel) (hfuel' : cs.length + r.length ≤ fuel') :
    Trails k (String.ofList r) false (scanData (fuel + 1) false line cs)
      (scanData (fuel' + 1) false (line + k) (cs ++ r)) := by
  rw [scanData_false, scanData_false, split?_append_blank hr]
  cases hsplit : split? cs with
  | none => exact trails_dataToken cs _ _
  | some s =>
    have hlength := length_split? hsplit
    refine trails_dataToken_append _ _ ?_
    rw [Nat.add_right_comm]
    exact trails_tagTokens hr ih s.marker (by omega) (by omega) (by omega)

lemma trails_scanData_true {n : ℕ} (ih : ScansAlike k r n) {cs : List Char} {fuel fuel' line : ℕ}
    (hn : cs.length ≤ n) (hfuel : cs.length ≤ fuel) (hfuel' : cs.length + r.length ≤ fuel') :
    Trails k (String.ofList r) false (scanData (fuel + 1) true line cs)
      (scanData (fuel' + 1) true (line + k) (cs ++ r)) := by
  have hlength := (List.dropWhile_sublist Text.isBlank (l := cs)).length_le
  rw [scanData_true, scanData_true]
  by_cases hcs : cs.dropWhile Text.isBlank = []
  · -- nothing is left of either text
    have hdrop : (cs ++ r).dropWhile Text.isBlank = [] := by
      rw [List.dropWhile_append, hcs]
      exact List.dropWhile_eq_nil_iff.2 hr
    rw [hcs, hdrop, scanData_false, scanData_false]
    exact .same
  · obtain ⟨htake, hdrop⟩ := span_append_of_ne_nil hcs r
    rw [htake, hdrop, Nat.add_right_comm]
    exact trails_scanData_false hr ih (hlength.trans hn) (by omega) (by omega)

/-- Where a tag has no end, white space behind it is skipped or malformed. -/
lemma trails_unclosed {cs : List Char} {fuel fuel' line : ℕ} {isVariable dotted : Bool}
    {nesting : ℤ} (hcs : cs.dropWhile isTagBlank = []) :
    Trails k (String.ofList r) true (scanTag (fuel + 1) isVariable nesting dotted line cs)
      (scanTag (fuel' + 1) isVariable nesting dotted (line + k) (cs ++ r)) := by
  obtain ⟨r', hr', hdrop, -⟩ := dropWhile_isTagBlank_append hr cs
  have hnone (ds : List Char) (hds : ∀ c ∈ ds, Text.isBlank c = true) :
      (if nesting = 0 then tagEnd? isVariable ds else none) = none := by
    split
    · rw [← List.nil_append ds, tagEnd?_append_blank hds]
      cases isVariable <;> rfl
    · rfl
  simp only [scanTag, hdrop, hcs, List.nil_append, hnone r' hr', hnone [] (List.forall_mem_nil _)]
  cases r' with
  | nil => exact .same
  | cons b r' =>
    obtain ⟨hb, hr'⟩ := List.forall_mem_cons.1 hr'
    simp only [scanToken_of_isBlank hb _ r' fun c hc => hr' c (List.mem_of_mem_head? hc)]
    exact .torn

lemma trails_scanTag {n : ℕ} (ih : ScansAlike k r n) {cs : List Char} {fuel fuel' line : ℕ}
    {isVariable dotted : Bool} {nesting : ℤ} (hn : cs.length ≤ n) (hfuel : cs.length ≤ fuel)
    (hfuel' : cs.length + r.length ≤ fuel') :
    Trails k (String.ofList r) true (scanTag (fuel + 1) isVariable nesting dotted line cs)
      (scanTag (fuel' + 1) isVariable nesting dotted (line + k) (cs ++ r)) := by
  by_cases hcs : cs.dropWhile isTagBlank = []
  · exact trails_unclosed hr hcs
  have hlength := (List.dropWhile_sublist isTagBlank (l := cs)).length_le
  have hend (ds : List Char) : (if nesting = 0 then tagEnd? isVariable (ds ++ r) else none) =
      (if nesting = 0 then tagEnd? isVariable ds else none).map fun p => (p.1, p.2 ++ r) := by
    split
    · exact tagEnd?_append_blank hr isVariable ds
    · rfl
  obtain ⟨htake, hdrop⟩ := span_append_of_ne_nil hcs r
  obtain ⟨c, ds, hds⟩ := List.exists_cons_of_ne_nil hcs
  rw [hds, List.length_cons] at hlength
  simp only [scanTag, htake, hdrop, hend, hds]
  cases hclose : (if nesting = 0 then tagEnd? isVariable (c :: ds) else none) with
  | some p =>
    obtain ⟨spacing, rest⟩ := p
    have hrest : rest.length < ds.length + 1 := by
      split at hclose
      · exact length_lt_of_tagEnd? hclose
      · cases hclose
    have htoken (l : ℕ) : (Located.mk (if isVariable then Token.closeVariable else .closeBlock)
        l).token.inTag = false := by
      cases isVariable <;> rfl
    simp only [Option.map_some, Nat.add_right_comm line k]
    refine .cons (by simp) ?_
    rw [htoken]
    exact ih.1 rest fuel fuel' _ _ (by omega) (by omega) (by omega)
  | none =>
    simp only [Option.map_none, List.cons_append, Nat.add_right_comm line k]
    generalize (dotted && (cs.takeWhile isTagBlank).isEmpty) = afterDot
    rcases scanToken_append_blank hr afterDot c ds with ⟨cause, hshort, hlong⟩ | hlong
    · rw [hshort, hlong]
      exact .cons (by simp) .same
    have hrest := length_scanToken afterDot c ds
    have htoken := inTag_scanToken afterDot c ds
    rw [hlong]
    generalize scanToken afterDot c ds = p at hrest htoken
    obtain ⟨t, rest⟩ := p
    dsimp only at hrest htoken
    have hstep (l breaks : ℕ) (nesting : ℤ) (dotted : Bool) :=
      trails_token ih htoken (by omega : rest.length < n) (by omega : rest.length < fuel)
        (by omega : rest.length + r.length < fuel') l breaks isVariable nesting dotted
    have hbreaks : lineBreaks (ds ++ r) - lineBreaks (rest ++ r) =
        lineBreaks ds - lineBreaks rest := by
      rw [lineBreaks_append, lineBreaks_append, Nat.add_sub_add_right]
    cases t with
    | malformed cause => exact .cons (by simp) .same
    | text s =>
      simp only [hbreaks]
      exact hstep _ _ _ _
    | symbol s => cases s <;> exact hstep _ 0 _ _
    | _ => exact hstep _ 0 _ _

lemma scansAlike (n : ℕ) : ScansAlike k r n := by
  induction n with
  | zero => exact ⟨fun _ _ _ _ _ h => absurd h (Nat.not_lt_zero _),
      fun _ _ _ _ _ _ _ h => absurd h (Nat.not_lt_zero _)⟩
  | succ n ih =>
    constructor
    · intro cs fuel fuel' line trim hn hfuel hfuel'
      obtain ⟨fuel, rfl⟩ := Nat.exists_eq_add_one_of_ne_zero (Nat.ne_zero_of_lt hfuel)
      obtain ⟨fuel', rfl⟩ := Nat.exists_eq_add_one_of_ne_zero (Nat.ne_zero_of_lt hfuel')
      cases trim
      · exact trails_scanData_false hr ih (by omega) (by omega) (by omega)
      · exact trails_scanData_true hr ih (by omega) (by omega) (by omega)
    · intro cs fuel fuel' line isVariable dotted nesting hn hfuel hfuel'
      obtain ⟨fuel, rfl⟩ := Nat.exists_eq_add_one_of_ne_zero (Nat.ne_zero_of_lt hfuel)
      obtain ⟨fuel', rfl⟩ := Nat.exists_eq_add_one_of_ne_zero (Nat.ne_zero_of_lt hfuel')
      exact trails_scanTag hr ih (by omega) (by omega) (by omega)

end

/-! ### White space in front -/

section

variable {l : List Char} (hl : ∀ c ∈ l, Text.isBlank c = true)

include hl

lemma split?_blank_append (cs : List Char) :
    split? (l ++ cs) = (split? cs).map fun s => { s with before := l ++ s.before } := by
  induction l with
  | nil => simp
  | cons b l ih =>
    obtain ⟨hb, hl⟩ := List.forall_mem_cons.1 hl
    rw [List.cons_append, split?_cons_of_ne (ne_of_isBlank hb (by decide)), ih hl]
    simp [Function.comp_def]

lemma trimEnd_blank_append (cs : List Char) :
    ∃ a : List Char, (∀ c ∈ a, Text.isBlank c = true) ∧
      Text.trimEnd (l ++ cs) = a ++ Text.trimEnd cs := by
  by_cases hcs : cs.reverse.dropWhile Text.isBlank = []
  · refine ⟨[], (List.forall_mem_nil _), ?_⟩
    have hl' : l.reverse.dropWhile Text.isBlank = [] :=
      List.dropWhile_eq_nil_iff.2 fun c hc => hl c (List.mem_reverse.1 hc)
    simp [Text.trimEnd, List.dropWhile_append, hcs, hl']
  · refine ⟨l, hl, ?_⟩
    rw [Text.trimEnd, List.reverse_append, (span_append_of_ne_nil hcs _).2]
    simp [Text.trimEnd]

end

/-- White space around a text with tags: the first piece of text is longer, the tokens behind it are
further down and the end trails. -/
lemma tokens_surrounded {l r : List Char} (hl : ∀ c ∈ l, Text.isBlank c = true)
    (hr : ∀ c ∈ r, Text.isBlank c = true) {s e : String} (he : e.toList = l ++ (s.toList ++ r))
    (htag : HasTag s) :
    ∃ (a d : List Char) (ts us : List Located), (∀ c ∈ a, Text.isBlank c = true) ∧
      tokens s = dataToken d 1 ++ ts ∧ tokens e = dataToken (a ++ d) 1 ++ us ∧
      Trails (lineBreaks l) (String.ofList r) false ts us := by
  obtain ⟨sp, hsp⟩ := Option.isSome_iff_exists.1 (hasTag_iff.1 htag)
  have hlength := length_split? hsp
  have hsplit : split? e.toList = some { sp with before := l ++ sp.before, rest := sp.rest ++ r } := by
    rw [he, split?_blank_append hl, split?_append_blank hr, hsp]
    rfl
  obtain ⟨a, d, ha, hd, hd'⟩ : ∃ a d : List Char, (∀ c ∈ a, Text.isBlank c = true) ∧
      (if sp.spacing == .remove then Text.trimEnd sp.before else sp.before) = d ∧
      (if sp.spacing == .remove then Text.trimEnd (l ++ sp.before) else l ++ sp.before) =
        a ++ d := by
    split
    · obtain ⟨a, ha, heq⟩ := trimEnd_blank_append hl sp.before
      exact ⟨a, _, ha, rfl, heq⟩
    · exact ⟨l, _, hl, rfl, rfl⟩
  have hrest : Trails (lineBreaks l) (String.ofList r) false
      (tagTokens (2 * s.toList.length + 1) (1 + lineBreaks sp.before) sp.marker sp.rest)
      (tagTokens (2 * e.toList.length + 1) (1 + lineBreaks (l ++ sp.before)) sp.marker
        (sp.rest ++ r)) := by
    have hline : 1 + lineBreaks (l ++ sp.before) = 1 + lineBreaks sp.before + lineBreaks l := by
      rw [lineBreaks_append]
      omega
    have hlength' : e.toList.length = l.length + (s.toList.length + r.length) := by
      rw [he, List.length_append, List.length_append]
    rw [hline]
    exact trails_tagTokens hr (scansAlike hr (sp.rest.length + 1)) sp.marker (Nat.lt_succ_self _)
      (by omega) (by omega)
  refine ⟨a, d, _, _, ha, ?_, ?_, hrest⟩
  · simp only [tokens, scanData_false, hsp, hd]
  · simp only [tokens, scanData_false, hsplit, hd']

end Lexer

end BurnRate.Expression
