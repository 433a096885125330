/-!
Label sets: keys with their values, in the order of the keys.

Keys are compared by code points, which is also the order of their UTF-8 bytes. A label set is
determined by its look-ups.
-/

namespace BurnRate

structure Labels where
  entries : List (String × String)
  increasing : entries.Pairwise (·.1 < ·.1)
  deriving DecidableEq

namespace Labels

def empty : Labels := ⟨[], .nil⟩

instance : EmptyCollection Labels := ⟨empty⟩
instance : Inhabited Labels := ⟨empty⟩

instance : Repr Labels := ⟨fun l => reprPrec l.entries⟩

def isEmpty (l : Labels) : Bool := l.entries.isEmpty

/-- Puts an entry into a list in key order, in place of one with the same key. -/
def put (k v : String) : List (String × String) → List (String × String)
  | [] => [(k, v)]
  | e :: es =>
    if k < e.1 then (k, v) :: e :: es
    else if k = e.1 then (k, v) :: es
    else e :: put k v es

theorem eq_or_mem_of_mem_put {k v : String} {es : List (String × String)} {x : String × String}
    (h : x ∈ put k v es) : x = (k, v) ∨ x ∈ es := by
  induction es with
  | nil => simpa [put] using h
  | cons e es ih =>
    simp only [put] at h
    split at h
    · simpa using h
    · split at h
      · rcases List.mem_cons.1 h with h | h
        · exact .inl h
        · exact .inr (List.mem_cons_of_mem _ h)
      · rcases List.mem_cons.1 h with h | h
        · exact .inr (h ▸ List.mem_cons_self)
        · exact (ih h).imp id (List.mem_cons_of_mem _)

theorem lt_of_not_lt_of_ne {a b : String} (h : ¬ a < b) (hne : a ≠ b) : b < a := by
  have hle : b ≤ a := String.not_lt.1 h
  exact String.not_le.1 fun hab => hne (String.le_antisymm hab hle)

theorem increasing_put (k v : String) {es : List (String × String)}
    (h : es.Pairwise (·.1 < ·.1)) : (put k v es).Pairwise (·.1 < ·.1) := by
  induction es with
  | nil => exact List.pairwise_singleton _ _
  | cons e es ih =>
    rw [List.pairwise_cons] at h
    simp only [put]
    split
    · next hk =>
      refine List.pairwise_cons.2 ⟨fun x hx => ?_, List.pairwise_cons.2 h⟩
      rcases List.mem_cons.1 hx with rfl | hx
      · exact hk
      · exact String.lt_trans hk (h.1 x hx)
    · next hk =>
      split
      · next he => exact List.pairwise_cons.2 ⟨fun x hx => he ▸ h.1 x hx, h.2⟩
      · next hne =>
        refine List.pairwise_cons.2 ⟨fun x hx => ?_, ih h.2⟩
        rcases eq_or_mem_of_mem_put hx with rfl | hx
        · exact lt_of_not_lt_of_ne hk hne
        · exact h.1 x hx

/-- Sets a label; an earlier value of the key is lost. -/
def insert (l : Labels) (k v : String) : Labels :=
  ⟨put k v l.entries, increasing_put k v l.increasing⟩

/-- Sets labels one after the other. -/
def insertAll (l : Labels) (pairs : List (String × String)) : Labels :=
  pairs.foldl (fun l (k, v) => l.insert k v) l

def ofList (pairs : List (String × String)) : Labels := empty.insertAll pairs

/-- The labels of both sets; where both have a key, the second decides. -/
def union (l m : Labels) : Labels := l.insertAll m.entries

def get? (l : Labels) (k : String) : Option String := l.entries.lookup k

def keys (l : Labels) : List String := l.entries.map (·.1)

end Labels

end BurnRate
