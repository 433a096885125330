import Mathlib.Data.List.Sort
import Mathlib.Tactic.Common

/-!
Names in order. A list of different names that is sorted is determined by what is in it.
-/

namespace BurnRate

variable {ns ms : List String}

lemma pairwise_mergeSort_names (ns : List String) : (ns.mergeSort (· ≤ ·)).Pairwise (· ≤ ·) := by
  have hsorted : (ns.mergeSort (· ≤ ·)).Pairwise (fun a b => decide (a ≤ b) = true) := by
    refine List.pairwise_mergeSort (fun a b c hab hbc => ?_) (fun a b => ?_) ns
    · rw [decide_eq_true_eq] at hab hbc ⊢
      exact String.le_trans hab hbc
    · rw [Bool.or_eq_true, decide_eq_true_eq, decide_eq_true_eq]
      exact String.le_total a b
  exact hsorted.imp of_decide_eq_true

/-- Different names are strictly increasing once they are sorted. -/
lemma increasing_mergeSort (h : ns.Nodup) : (ns.mergeSort (· ≤ ·)).Pairwise (· < ·) := by
  have hnodup : (ns.mergeSort (· ≤ ·)).Pairwise (· ≠ ·) :=
    (List.mergeSort_perm ns _).nodup_iff.2 h
  refine ((pairwise_mergeSort_names ns).and hnodup).imp fun {a b} hab => ?_
  exact String.not_le.1 fun hba => hab.2 (String.le_antisymm hab.1 hba)

lemma eq_of_increasing (hn : ns.Pairwise (· < ·)) (hm : ms.Pairwise (· < ·))
    (h : ∀ n, n ∈ ns ↔ n ∈ ms) : ns = ms := by
  have : Std.Irrefl fun a b : String => a < b := ⟨String.lt_irrefl⟩
  exact hn.eq_of_mem_iff hm fun {n} => h n

end BurnRate
