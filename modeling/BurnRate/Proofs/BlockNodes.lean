import BurnRate.Proofs.BlockTokens
import BurnRate.Yaml.Node.Parser

/-!
The tokens of a block are parsed back to its structure.
-/

namespace BurnRate.Yaml

mutual

/-- The node that a block is read back as. -/
def Block.node : Block → Node
  | .text s => .scalar none (Style.choose s.toList == .plain) s
  | .list bs => .sequence none (itemNodes bs)
  | .record fs => .mapping none (fieldNodes fs)

def itemNodes : List Block → List Node
  | [] => []
  | b :: bs => b.node :: itemNodes bs

def fieldNodes : List (String × Block) → List (Node × Node)
  | [] => []
  | (key, value) :: fs =>
    (.scalar none (Style.choose key.toList == .plain) key, value.node) :: fieldNodes fs

end

namespace Node

variable {fuel : ℕ} {block indentless : Bool} {s : ParseState} {rest : List Token}

/-- The token starts a node that has no anchor, no tag and no alias. -/
def startsNode : Token → Bool
  | .scalar .. | .flowSequence | .flowMapping | .blockSequence | .blockMapping => true
  | _ => false

/-- The tokens of a block start with its content; only a list behind a key starts with a dash. -/
lemma tokens_head (b : Block) (after : Bool) : ∃ t ts, b.tokens after = t :: ts ∧
    (startsNode t = true ∨ after = true ∧ t = .blockEntry) := by
  cases b with
  | text s => exact ⟨_, [], by rw [Block.tokens], .inl rfl⟩
  | list bs =>
    rw [Block.tokens]
    rcases bs with _ | ⟨b, bs⟩
    · exact ⟨_, _, rfl, .inl rfl⟩
    · cases after with
      | false => exact ⟨_, _, rfl, .inl rfl⟩
      | true =>
        refine ⟨.blockEntry, b.tokens false ++ itemTokens bs, ?_, .inr ⟨rfl, rfl⟩⟩
        rw [itemTokens]
        rfl
  | record fs =>
    rw [Block.tokens]
    rcases fs with _ | ⟨f, fs⟩
    · exact ⟨_, _, rfl, .inl rfl⟩
    · exact ⟨_, _, rfl, .inl rfl⟩

/-- Without an anchor or a tag in front of it, a node is its content. -/
lemma parse?_content {t : Token} {ts : List Token} (h : startsNode t = true ∨ t = .blockEntry)
    (hs : s.tokens = t :: ts) :
    parse? (fuel + 1) block indentless s =
      parseContent? fuel block indentless none ⟨none, none⟩ s.count := by
  have hprops : properties (t :: ts) = (⟨none, none⟩, t :: ts) := by
    rcases h with h | rfl
    · cases t <;> first | rfl | cases h
    · rfl
  have hstate : ({ s with tokens := t :: ts } : ParseState) = s := by rw [← hs]
  rw [parse?, hs]
  split
  · next heq =>
    cases heq
    rcases h with h | h <;> cases h
  · rw [hprops]
    simp only [Option.bind_eq_bind, Option.bind_some, hstate]
    cases parseContent? fuel block indentless none ⟨none, none⟩ s.count <;> rfl

/-- The tokens of a block are parsed to its node; a list behind a key ends where no dash follows. -/
def IsParsed (b : Block) : Prop :=
  ∀ fuel after indentless s rest, (after = true → indentless = true) →
    (after = true → rest.head? ≠ some .blockEntry) → s.tokens = b.tokens after ++ rest →
    3 * (b.tokens after).length ≤ fuel →
    ∃ s', parse? fuel true indentless s = some (b.node, s') ∧ s'.tokens = rest

lemma isParsed_text (t : String) : IsParsed (.text t) := by
  intro fuel after indentless s rest _ _ hs hfuel
  rw [Block.tokens] at hs hfuel
  obtain ⟨fuel, rfl⟩ : ∃ f, fuel = f + 2 := ⟨fuel - 2, by simp at hfuel; omega⟩
  refine ⟨{ s.count with tokens := rest }, ?_, rfl⟩
  rw [parse?_content (.inl rfl) hs, parseContent?, ParseState.count, hs, Block.node]
  simp [Token.ofScalar]

/-- What stands behind the items of a list: the end of the list, or behind a list without marks
whatever is no further item. -/
def EndsItems (indentless : Bool) (close rest : List Token) : Prop :=
  indentless = true ∧ close = rest ∧ rest.head? ≠ some .blockEntry ∨
    indentless = false ∧ close = .blockEnd :: rest

lemma parseItems?_items {bs : List Block} (hbs : ∀ b ∈ bs, IsParsed b) (fuel : ℕ)
    (indentless : Bool)
    (s : ParseState) {close : List Token} (hclose : EndsItems indentless close rest)
    (hs : s.tokens = itemTokens bs ++ close) (hfuel : 3 * (itemTokens bs).length ≤ fuel + 2)
    (hpos : 0 < fuel) :
    ∃ s', parseItems? fuel indentless s = some (itemNodes bs, s') ∧ s'.tokens = rest := by
  induction bs generalizing fuel s with
  | nil =>
    obtain ⟨fuel, rfl⟩ : ∃ f, fuel = f + 1 := ⟨fuel - 1, by omega⟩
    rw [itemTokens, List.nil_append] at hs
    rw [parseItems?, hs, itemNodes]
    rcases hclose with ⟨rfl, rfl, hnext⟩ | ⟨rfl, rfl⟩
    · refine ⟨s, ?_, hs⟩
      split
      · exact absurd rfl hnext
      · rfl
      · rfl
    · exact ⟨{ s with tokens := rest }, rfl, rfl⟩
  | cons b bs ih =>
    obtain ⟨fuel, rfl⟩ : ∃ f, fuel = f + 1 := ⟨fuel - 1, by omega⟩
    rw [itemTokens] at hs hfuel
    simp only [List.cons_append, List.append_assoc, List.length_cons,
      List.length_append] at hs hfuel
    obtain ⟨t, ts, htokens, ht⟩ := tokens_head b false
    have hlen : 0 < (b.tokens false).length := by rw [htokens]; simp
    obtain ⟨s₁, hparse, hs₁⟩ := hbs b (by simp) fuel false false
      { s with tokens := b.tokens false ++ (itemTokens bs ++ close) } (itemTokens bs ++ close)
      (by simp) (by simp) rfl (by omega)
    obtain ⟨s₂, hitems, hs₂⟩ :=
      ih (fun b hb => hbs b (by simp [hb])) fuel s₁ hs₁ (by omega) (by omega)
    refine ⟨s₂, ?_, hs₂⟩
    have hstarts : startsNode t = true := ht.resolve_right (by simp)
    have hnext : (b.tokens false ++ (itemTokens bs ++ close)).head? = some t := by rw [htokens]; rfl
    have hpresent : ((some t == some Token.blockEntry) || (some t == some Token.blockEnd) ||
        (indentless && endsEntry (some t))) = false := by
      cases t <;> first | (cases hstarts; done) | (cases indentless <;> rfl)
    rw [parseItems?, hs]
    simp only [hnext, hpresent, Bool.false_eq_true, if_false, hparse, hitems, Option.bind_eq_bind,
      Option.bind_some, itemNodes]

lemma parseFields?_fields {fs : List (String × Block)} (hfs : ∀ f ∈ fs, IsParsed f.2) (fuel : ℕ)
    (s : ParseState) (hs : s.tokens = fieldTokens fs ++ .blockEnd :: rest)
    (hfuel : 3 * (fieldTokens fs).length ≤ fuel + 2) (hpos : 0 < fuel) :
    ∃ s', parseFields? fuel s = some (fieldNodes fs, s') ∧ s'.tokens = rest := by
  induction fs generalizing fuel s with
  | nil =>
    obtain ⟨fuel, rfl⟩ : ∃ f, fuel = f + 1 := ⟨fuel - 1, by omega⟩
    rw [fieldTokens, List.nil_append] at hs
    rw [parseFields?, hs, fieldNodes]
    exact ⟨{ s with tokens := rest }, rfl, rfl⟩
  | cons f fs ih =>
    obtain ⟨key, b⟩ := f
    obtain ⟨fuel, rfl⟩ : ∃ f, fuel = f + 1 := ⟨fuel - 1, by omega⟩
    rw [fieldTokens] at hs hfuel
    simp only [List.cons_append, List.append_assoc, List.length_cons,
      List.length_append] at hs hfuel
    generalize hafter : isSimpleKey key.toList = after at hs hfuel
    obtain ⟨t, ts, htokens, ht⟩ := tokens_head b after
    have hlen : 0 < (b.tokens after).length := by rw [htokens]; simp
    let close := fieldTokens fs ++ .blockEnd :: rest
    obtain ⟨s₁, hkey, hs₁⟩ := isParsed_text key fuel false true
      { s with tokens := Token.ofScalar key.toList :: .value :: (b.tokens after ++ close) }
      (.value :: (b.tokens after ++ close)) (by simp) (by simp) rfl
      (by rw [Block.tokens]; simp; omega)
    have hclose : close.head? ≠ some .blockEntry := by
      rcases fs with _ | ⟨⟨k, v⟩, fs⟩
      · simp [close, fieldTokens]
      · simp [close, fieldTokens]
    have hb : IsParsed b := hfs (key, b) (by simp)
    obtain ⟨s₂, hvalue, hs₂⟩ := hb fuel after true
      { s₁ with tokens := b.tokens after ++ close } close (fun _ => rfl) (fun _ => hclose) rfl
      (by omega)
    obtain ⟨s₃, hfields, hs₃⟩ :=
      ih (fun f hf => hfs f (by simp [hf])) fuel s₂ hs₂ (by omega) (by omega)
    refine ⟨s₃, ?_, hs₃⟩
    have hnext : (b.tokens after ++ close).head? = some t := by rw [htokens]; rfl
    have hpresent : endsEntry (some t) = false := by
      rcases ht with h | ⟨-, rfl⟩
      · cases t <;> first | rfl | cases h
      · rfl
    have hscalar : endsEntry (some (Token.ofScalar key.toList)) = false := rfl
    rw [parseFields?, hs]
    simp only [List.head?_cons, hscalar, Bool.false_eq_true, if_false, hkey, hs₁, hnext, hpresent,
      hvalue, hfields, Option.bind_eq_bind, Option.bind_some, fieldNodes, Block.node, close]

lemma isParsed_list {bs : List Block} (hbs : ∀ b ∈ bs, IsParsed b) : IsParsed (.list bs) := by
  intro fuel after indentless s rest hafter hrest hs hfuel
  rw [Block.tokens] at hs hfuel
  rw [Block.node]
  rcases bs with _ | ⟨b, bs⟩
  · -- brackets
    obtain ⟨fuel, rfl⟩ : ∃ f, fuel = f + 3 := ⟨fuel - 3, by simp at hfuel; omega⟩
    refine ⟨{ s.count.count with tokens := rest }, ?_, rfl⟩
    rw [parse?_content (.inl rfl) hs, parseContent?, ParseState.count, hs]
    rfl
  · generalize hitems : b :: bs = items at hs hfuel hbs
    have hne : items.isEmpty = false := by rw [← hitems]; rfl
    have hlen : 0 < (itemTokens items).length := by
      rw [← hitems, itemTokens]
      simp
    rw [hne] at hs hfuel
    simp only [Bool.false_eq_true, if_false] at hs hfuel
    cases after with
    | true =>
      -- dashes only
      simp only [if_true] at hs hfuel
      obtain ⟨fuel, rfl⟩ : ∃ f, fuel = f + 2 := ⟨fuel - 2, by omega⟩
      obtain ⟨s', hparse, hs'⟩ := parseItems?_items hbs fuel true s.count
        (.inl ⟨rfl, rfl, hrest rfl⟩) hs (by omega) (by omega)
      obtain ⟨ts, hdash⟩ : ∃ ts, s.tokens = .blockEntry :: ts := by
        rw [hs, ← hitems, itemTokens]
        exact ⟨_, rfl⟩
      refine ⟨s'.count, ?_, hs'⟩
      have hcount : s.count.tokens = .blockEntry :: ts := hdash
      rw [parse?_content (.inr rfl) hdash, parseContent?, hcount, hafter rfl]
      simp [hparse]
    | false =>
      simp only [Bool.false_eq_true, if_false, List.cons_append, List.append_assoc,
        List.length_cons, List.length_append] at hs hfuel
      obtain ⟨fuel, rfl⟩ : ∃ f, fuel = f + 2 := ⟨fuel - 2, by omega⟩
      obtain ⟨s', hparse, hs'⟩ := parseItems?_items hbs fuel false
        { s.count with tokens := itemTokens items ++ .blockEnd :: rest } (.inr ⟨rfl, rfl⟩) rfl
        (by omega) (by omega)
      refine ⟨s'.count, ?_, hs'⟩
      have hcount : s.count.tokens = .blockSequence :: (itemTokens items ++ .blockEnd :: rest) := hs
      rw [parse?_content (.inl rfl) hs, parseContent?, hcount]
      simp [hparse]

lemma isParsed_record {fs : List (String × Block)} (hfs : ∀ f ∈ fs, IsParsed f.2) :
    IsParsed (.record fs) := by
  intro fuel after indentless s rest _ _ hs hfuel
  rw [Block.tokens] at hs hfuel
  rw [Block.node]
  rcases fs with _ | ⟨f, fs⟩
  · -- braces
    obtain ⟨fuel, rfl⟩ : ∃ f, fuel = f + 3 := ⟨fuel - 3, by simp at hfuel; omega⟩
    refine ⟨{ s.count.count with tokens := rest }, ?_, rfl⟩
    rw [parse?_content (.inl rfl) hs, parseContent?, ParseState.count, hs]
    rfl
  · generalize hfields : f :: fs = fields at hs hfuel hfs
    have hne : fields.isEmpty = false := by rw [← hfields]; rfl
    rw [hne] at hs hfuel
    simp only [Bool.false_eq_true, if_false, List.cons_append, List.append_assoc, List.length_cons,
      List.length_append] at hs hfuel
    obtain ⟨fuel, rfl⟩ : ∃ f, fuel = f + 2 := ⟨fuel - 2, by omega⟩
    obtain ⟨s', hparse, hs'⟩ := parseFields?_fields hfs fuel
      { s.count with tokens := fieldTokens fields ++ .blockEnd :: rest } rfl (by omega) (by omega)
    refine ⟨s'.count, ?_, hs'⟩
    have hcount : s.count.tokens = .blockMapping :: (fieldTokens fields ++ .blockEnd :: rest) := hs
    rw [parse?_content (.inl rfl) hs, parseContent?, hcount]
    simp [hparse]

lemma isParsed (b : Block) : IsParsed b := by
  induction b using Block.induction with
  | text t => exact isParsed_text t
  | list bs hbs => exact isParsed_list hbs
  | record fs hfs => exact isParsed_record hfs

lemma ofTokens?_tokens (b : Block) :
    ∃ d, ofTokens? (b.tokens false) = some d ∧ d.root = b.node := by
  obtain ⟨t, ts, htokens, ht⟩ := tokens_head b false
  have hstarts : startsNode t = true := ht.resolve_right (by simp)
  obtain ⟨s, hparse, hs⟩ := isParsed b (3 * (b.tokens false).length + 3) false false
    { tokens := b.tokens false, handles := defaultHandles } [] (by simp) (by simp) (by simp)
    (by omega)
  refine ⟨{ root := b.node, anchored := s.anchored, size := s.size }, ?_, rfl⟩
  rw [htokens] at hparse ⊢
  rw [List.length_cons] at hparse
  cases t <;> first
    | cases hstarts; done
    | simp [ofTokens?, hparse, hs]

/-- The text of a document is read back as the node of its block. -/
theorem ofText?_write {b : Block} (hb : ∀ s, b ≠ .text s) :
    ∃ d, ofText? b.write = some d ∧ d.root = b.node := by
  rw [ofText?, Token.ofText?_write hb]
  exact ofTokens?_tokens b

end Node

end BurnRate.Yaml
