import BurnRate.Proofs.BlockNodes
import BurnRate.Yaml.Value

/-!
The text that is written for a block is read back as the value of the block.

The reader limits how deep collections nest, and a record may have no key twice.
-/

namespace BurnRate.Yaml

mutual

/-- The value that a block stands for: all its scalars are texts. -/
def Block.value : Block → Value
  | .text s => .text s
  | .list bs => .sequence (itemValues bs)
  | .record fs => .mapping (fieldValues fs)

def itemValues : List Block → List Value
  | [] => []
  | b :: bs => b.value :: itemValues bs

def fieldValues : List (String × Block) → List (Value × Value)
  | [] => []
  | (key, value) :: fs => (.text key, value.value) :: fieldValues fs

end

/-- Collections nest at most as deep as given, and no record has a key twice. -/
inductive Block.Fits : ℕ → Block → Prop where
  | text (depth : ℕ) (s : String) : Fits depth (.text s)
  | list {depth : ℕ} {bs : List Block} (items : ∀ b ∈ bs, Fits depth b) :
      Fits (depth + 1) (.list bs)
  | record {depth : ℕ} {fs : List (String × Block)} (distinct : (fs.map (·.1)).Nodup)
    (values : ∀ f ∈ fs, Fits depth f.2) : Fits (depth + 1) (.record fs)

lemma Block.Fits.mono {m n : ℕ} {b : Block} (h : b.Fits m) (hmn : m ≤ n) : b.Fits n := by
  induction h generalizing n with
  | text depth s => exact .text n s
  | list items ih =>
    obtain ⟨n, rfl⟩ : ∃ k, n = k + 1 := ⟨n - 1, by omega⟩
    exact .list fun b hb => ih b hb (by omega)
  | record distinct values ih =>
    obtain ⟨n, rfl⟩ : ∃ k, n = k + 1 := ⟨n - 1, by omega⟩
    exact .record distinct fun f hf => ih f hf (by omega)

/-- A plain scalar that is text stands for its characters. -/
lemma ofPlain_eq_text {cs : List Char} (h : isPlainText cs = true) :
    Scalar.ofPlain cs = .text (String.ofList cs) := by
  rw [isPlainText, Bool.and_eq_true] at h
  have htext := h.1
  unfold Scalar.ofPlain at htext ⊢
  repeat' split at htext
  all_goals first
    | cases htext; done
    | simp_all

/-- A text is read back as text in whatever style it was written. -/
lemma scalarValue?_text (s : String) :
    scalarValue? none (Style.choose s.toList == .plain) s = some (.text s) := by
  simp only [scalarValue?, localTag?, Option.map_none]
  by_cases h : Style.choose s.toList = .plain
  · have htext := ofPlain_eq_text (choose_plain h).2
    simp [h, plainValue?, htext]
  · simp [h]

namespace Value

lemma ofNode_text (depth : ℕ) (s : String) :
    ofNode depth (.scalar none (Style.choose s.toList == .plain) s) = pure (.text s) := by
  rw [ofNode]
  simp only [Reading.follow, pure_bind, scalarValue?_text]
  rfl

lemma mapM_ofNode {depth : ℕ} {bs : List Block}
    (hbs : ∀ b ∈ bs, ofNode depth b.node = pure b.value) :
    (itemNodes bs).mapM (ofNode depth) = pure (itemValues bs) := by
  induction bs with
  | nil => rfl
  | cons b bs ih =>
    rw [itemNodes, List.mapM_cons, hbs b (by simp), pure_bind, ih fun b hb => hbs b (by simp [hb]),
      pure_bind, itemValues]

/-- Fields with keys that are new join those that were read. -/
lemma foldlM_fields {depth : ℕ} {fs : List (String × Block)} (read : List (Value × Value))
    (hfs : ∀ f ∈ fs, ofNode depth f.2.node = pure f.2.value) (hnodup : (fs.map (·.1)).Nodup)
    (hnew : ∀ f ∈ fs, read.any (·.1.same (.text f.1)) = false) :
    (fieldNodes fs).foldlM (fun fields (k, v) => do
      addField fields (← ofNode depth k, ← ofNode depth v)) read =
        pure ((fieldValues fs).reverse ++ read) := by
  induction fs generalizing read with
  | nil => rfl
  | cons f fs ih =>
    obtain ⟨key, b⟩ := f
    rw [List.map_cons, List.nodup_cons] at hnodup
    have hadd : addField read (.text key, b.value) = pure ((.text key, b.value) :: read) := by
      rw [addField, hnew (key, b) (by simp)]
      rfl
    have hb : ofNode depth b.node = pure b.value := hfs (key, b) (by simp)
    rw [fieldNodes, List.foldlM_cons]
    simp only [ofNode_text, hb, pure_bind, hadd]
    rw [ih ((.text key, b.value) :: read) (fun f hf => hfs f (by simp [hf])) hnodup.2, fieldValues]
    · simp
    · intro f hf
      have hne : key ≠ f.1 := fun h => hnodup.1 (List.mem_map.2 ⟨f, hf, h.symm⟩)
      rw [List.any_cons, hnew f (by simp [hf]), same]
      simpa using hne

/-- The node of a block stands for its value. -/
lemma ofNode_node {depth : ℕ} {b : Block} (h : b.Fits depth) :
    ofNode depth b.node = pure b.value := by
  induction h with
  | text depth s => rw [Block.node, Block.value, ofNode_text]
  | list items ih =>
    rw [Block.node, Block.value, ofNode]
    simp only [Reading.follow, pure_bind, mapM_ofNode ih]
    rfl
  | record distinct values ih =>
    rw [Block.node, Block.value, ofNode]
    simp only [Reading.follow, pure_bind]
    rw [foldlM_fields [] ih distinct (by simp)]
    simp [withTag, localTag?]

/-- **Round trip**: the text of a list or record is read back as its value. -/
theorem ofText?_write {b : Block} (hb : ∀ s, b ≠ .text s) (h : b.Fits maxDepth) :
    ofText? b.write = some b.value := by
  obtain ⟨d, hd, hroot⟩ := Node.ofText?_write hb
  rw [ofText?, hd]
  simp only [Option.bind_eq_bind, Option.bind_some, hroot, ofNode_node h]
  rfl

end Value

end BurnRate.Yaml
