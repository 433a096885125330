import BurnRate.Proofs.BlockValues
import BurnRate.RuleFile

/-!
A rule file is read back as the document of its groups.
-/

namespace BurnRate

open Yaml

/-- The field of a document that holds a text. -/
def textField (key text : String) : Value × Value := (.text key, .text text)

/-- The labels as a mapping in the order of their keys, if there are any. -/
def Labels.documentField (l : Labels) : List (Value × Value) :=
  if l.entries = [] then []
  else [(.text "labels", .mapping (l.entries.map fun (k, v) => textField k v))]

/-- A rule as the rule file shows it. -/
def Rule.document : Rule → Value
  | recording record labels expr =>
    .mapping (textField "record" record :: labels.documentField ++ [textField "expr" expr])
  | alerting alert hold labels expr =>
    .mapping (textField "alert" alert :: textField "for" hold.text :: labels.documentField
      ++ [textField "expr" expr])

def RuleGroup.document (g : RuleGroup) : Value :=
  .mapping [textField "name" g.name, (.text "rules", .sequence (g.rules.map Rule.document))]

def RuleGroups.document (gs : RuleGroups) : Value :=
  .mapping [(.text "groups", .sequence (gs.groups.map RuleGroup.document))]

/-! ### The document is the value of the block that is written -/

lemma itemValues_map {α : Type} (f : α → Block) (xs : List α) :
    itemValues (xs.map f) = xs.map fun x => (f x).value := by
  induction xs with
  | nil => rfl
  | cons x xs ih => rw [List.map_cons, itemValues, ih, List.map_cons]

lemma fieldValues_append (as bs : List (String × Block)) :
    fieldValues (as ++ bs) = fieldValues as ++ fieldValues bs := by
  induction as with
  | nil => rfl
  | cons a as ih =>
    obtain ⟨key, b⟩ := a
    rw [List.cons_append, fieldValues, fieldValues, ih, List.cons_append]

lemma fieldValues_text (key text : String) :
    fieldValues [(key, .text text)] = [textField key text] := by
  rw [fieldValues, fieldValues, Block.value]
  rfl

lemma fieldValues_labels (l : Labels) : fieldValues l.field = l.documentField := by
  have hentries : ∀ es : List (String × String),
      fieldValues (es.map fun (k, v) => (k, Block.text v)) =
        es.map fun (k, v) => textField k v := by
    intro es
    induction es with
    | nil => rfl
    | cons e es ih =>
      rw [List.map_cons, fieldValues, ih, Block.value, List.map_cons]
      rfl
  rw [Labels.field, Labels.documentField, Labels.isEmpty]
  cases h : l.entries with
  | nil => rfl
  | cons e es =>
    simp only [List.isEmpty_cons, Bool.false_eq_true, if_false, reduceCtorEq]
    rw [fieldValues, fieldValues, Labels.toBlock, Block.value, hentries, h]

lemma Rule.value_toBlock (r : Rule) : r.toBlock.value = r.document := by
  cases r with
  | recording record labels expr =>
    rw [toBlock, document, Block.value, fieldValues_append, fieldValues_append, fieldValues_text,
      fieldValues_text, fieldValues_labels]
    rfl
  | alerting alert hold labels expr =>
    have hhead : fieldValues [("alert", .text alert), ("for", .text hold.text)] =
        [textField "alert" alert, textField "for" hold.text] :=
      (fieldValues_append [("alert", .text alert)] [("for", .text hold.text)]).trans
        (by rw [fieldValues_text, fieldValues_text]; rfl)
    rw [toBlock, document, Block.value, fieldValues_append, fieldValues_append, hhead,
      fieldValues_text, fieldValues_labels]
    rfl

lemma RuleGroup.value_toBlock (g : RuleGroup) : g.toBlock.value = g.document := by
  rw [toBlock, document, Block.value, fieldValues, fieldValues, fieldValues, Block.value,
    Block.value, itemValues_map]
  simp only [Rule.value_toBlock]
  rfl

lemma RuleGroups.value_toBlock (gs : RuleGroups) : gs.toBlock.value = gs.document := by
  rw [toBlock, document, Block.value, fieldValues, fieldValues, Block.value, itemValues_map]
  simp only [RuleGroup.value_toBlock]

/-! ### The block fits the limits of the reader -/

lemma Labels.fits (l : Labels) : l.toBlock.Fits 1 := by
  refine .record ?_ ?_
  · rw [List.map_map]
    have hkeys : l.entries.map ((·.1) ∘ fun (k, v) => (k, Block.text v)) = l.keys := rfl
    rw [hkeys, Labels.keys, List.Nodup, List.pairwise_map]
    exact l.increasing.imp fun hlt => String.ne_of_lt hlt
  · intro f hf
    obtain ⟨e, -, rfl⟩ := List.mem_map.1 hf
    exact .text 0 e.2

lemma Rule.fits (r : Rule) : r.toBlock.Fits 2 := by
  have hlabels : ∀ l : Labels, ∀ f ∈ l.field, f.2.Fits 1 := by
    intro l f hf
    rw [Labels.field] at hf
    split at hf
    · cases hf
    · rw [List.mem_singleton.1 hf]
      exact l.fits
  cases r with
  | recording record labels expr =>
    refine .record ?_ fun f hf => ?_
    · by_cases h : labels.isEmpty = true <;> simp [Labels.field, h]
    · simp only [List.mem_append, List.mem_singleton] at hf
      rcases hf with (rfl | hf) | rfl
      · exact .text 1 record
      · exact hlabels labels f hf
      · exact .text 1 expr
  | alerting alert hold labels expr =>
    refine .record ?_ fun f hf => ?_
    · by_cases h : labels.isEmpty = true <;> simp [Labels.field, h]
    · simp only [List.mem_append, List.mem_cons, List.not_mem_nil, or_false] at hf
      rcases hf with ((rfl | rfl) | hf) | rfl
      · exact .text 1 alert
      · exact .text 1 hold.text
      · exact hlabels labels f hf
      · exact .text 1 expr

lemma RuleGroup.fits (g : RuleGroup) : g.toBlock.Fits 4 := by
  refine .record (by simp) fun f hf => ?_
  simp only [List.mem_cons, List.not_mem_nil, or_false] at hf
  rcases hf with rfl | rfl
  · exact .text 3 g.name
  · refine .list fun b hb => ?_
    obtain ⟨r, -, rfl⟩ := List.mem_map.1 hb
    exact r.fits

lemma RuleGroups.fits (gs : RuleGroups) : gs.toBlock.Fits 6 := by
  refine .record (by simp) fun f hf => ?_
  obtain rfl := List.mem_singleton.1 hf
  refine .list fun b hb => ?_
  obtain ⟨g, -, rfl⟩ := List.mem_map.1 hb
  exact g.fits

/-- **Round trip**: reading a rule file gives the document of its groups, with all texts as they
were. -/
theorem RuleGroups.ofText?_toYaml (gs : RuleGroups) :
    Value.ofText? gs.toYaml = some gs.document := by
  have hfits : gs.toBlock.Fits maxDepth := gs.fits.mono (by decide)
  have hrecord : ∀ s, gs.toBlock ≠ .text s := by
    intro s h
    cases h
  rw [toYaml, Value.ofText?_write hrecord hfits, value_toBlock]

end BurnRate
