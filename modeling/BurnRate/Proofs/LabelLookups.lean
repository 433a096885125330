import BurnRate.Labels
import Mathlib.Data.List.Sort

/-!
Look-ups in label sets, which say all there is to say about them.
-/

namespace BurnRate.Labels

lemma lookup_cons_ite (e : String × String) (es : List (String × String)) (n : String) :
    (e :: es).lookup n = if n = e.1 then some e.2 else es.lookup n := by
  rw [List.lookup_cons]
  cases h : n == e.1 with
  | true => rw [if_pos (by simpa using h)]
  | false => rw [if_neg (by simpa using h)]

lemma lookup_eq_none_iff {es : List (String × String)} {n : String} :
    es.lookup n = none ↔ n ∉ es.map (·.1) := by
  induction es with
  | nil => simp
  | cons e es ih =>
    rw [lookup_cons_ite]
    split <;> simp_all

lemma lookup_put (k v n : String) (es : List (String × String)) :
    (put k v es).lookup n = if n = k then some v else es.lookup n := by
  induction es with
  | nil => rw [put, lookup_cons_ite]
  | cons e es ih =>
    simp only [put]
    split
    · rw [lookup_cons_ite]
    · split
      · next hk =>
        rw [lookup_cons_ite, lookup_cons_ite, hk]
        split <;> rfl
      · next hk =>
        rw [lookup_cons_ite, ih, lookup_cons_ite]
        by_cases hn : n = k
        · subst hn
          simp [hk]
        · simp [hn]

lemma get?_insert (l : Labels) (k v n : String) :
    (l.insert k v).get? n = if n = k then some v else l.get? n :=
  lookup_put k v n l.entries

lemma isSome_get?_insertAll {pairs : List (String × String)} {l : Labels} {n : String}
    (h : (l.get? n).isSome ∨ n ∈ pairs.map (·.1)) : ((l.insertAll pairs).get? n).isSome := by
  induction pairs generalizing l with
  | nil => simpa [insertAll] using h
  | cons e pairs ih =>
    refine ih ?_
    rw [get?_insert]
    by_cases hn : n = e.1
    · simp [hn]
    · simpa [hn] using h

lemma get?_insertAll (l : Labels) (pairs : List (String × String)) (n : String) :
    (l.insertAll pairs).get? n = (pairs.reverse.lookup n).or (l.get? n) := by
  induction pairs generalizing l with
  | nil => rfl
  | cons e pairs ih =>
    rw [List.reverse_cons, List.lookup_append, lookup_cons_ite, List.lookup_nil]
    refine (ih (l.insert e.1 e.2)).trans ?_
    rw [get?_insert, Option.or_assoc]
    split <;> rfl

/-- The last of the values that a key stands with counts. -/
lemma get?_ofList (pairs : List (String × String)) (n : String) :
    (ofList pairs).get? n = pairs.reverse.lookup n := by
  rw [ofList, get?_insertAll]
  exact Option.or_none

lemma mem_iff_lookup {es : List (String × String)} (h : es.Pairwise (·.1 < ·.1)) {k v : String} :
    (k, v) ∈ es ↔ es.lookup k = some v := by
  induction es with
  | nil => simp
  | cons e es ih =>
    rw [List.pairwise_cons] at h
    rw [lookup_cons_ite, List.mem_cons, ih h.2]
    split
    · next hk =>
      have hnone : es.lookup k ≠ some v := fun hv => by
        have hlt : e.1 < k := h.1 _ ((ih h.2).2 hv)
        exact String.lt_irrefl k (hk ▸ hlt)
      rw [or_iff_left hnone, Prod.ext_iff, Option.some_inj, and_iff_right hk, eq_comm]
    · next hk => simp [Prod.ext_iff, hk]

/-- A label set is determined by its look-ups. -/
lemma ext_get? {l m : Labels} (h : ∀ n, l.get? n = m.get? n) : l = m := by
  have : Std.Irrefl fun a b : String × String => a.1 < b.1 := ⟨fun a => String.lt_irrefl a.1⟩
  have hentries : l.entries = m.entries := l.increasing.eq_of_mem_iff m.increasing fun e => by
    rw [mem_iff_lookup l.increasing, mem_iff_lookup m.increasing]
    exact iff_of_eq (congrArg (· = _) (h e.1))
  cases l
  cases m
  simpa using hentries

end BurnRate.Labels
