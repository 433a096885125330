import BurnRate.ErrorRatio

/-!
The kinds of objective that definitions may name, in the order in which they were added.
-/

namespace BurnRate

structure Registry where
  kinds : List Kind := []
  nodup : kinds.Nodup := by decide

namespace Registry

def empty : Registry := {}

/-- Adds a kind; one that is known keeps its place. -/
def add (r : Registry) (k : Kind) : Registry :=
  if h : k ∈ r.kinds then r
  else ⟨r.kinds ++ [k], List.nodup_append.2
    ⟨r.nodup, by simp, fun _ hx _ hy hxy => h (List.mem_singleton.1 hy ▸ hxy ▸ hx)⟩⟩

def ofList (ks : List Kind) : Registry := ks.foldl add empty

/-- All kinds. -/
def default : Registry := ofList Kind.all

/-- The kind with a name. -/
def lookup? (r : Registry) (name : String) : Option Kind := r.kinds.find? (·.name == name)

/-- The names of the kinds, sorted. -/
def names (r : Registry) : List String := (r.kinds.map Kind.name).mergeSort (· ≤ ·)

/-- The rules of all kinds, in the order of the kinds. -/
def ratioRules (r : Registry) : List Rule := r.kinds.flatMap Kind.ratioRules

def size (r : Registry) : Nat := r.kinds.length

end Registry

end BurnRate
