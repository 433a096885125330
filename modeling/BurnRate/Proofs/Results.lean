import Mathlib.Data.List.Forall2
import Mathlib.Tactic.Common

/-!
Results of computations that may fail, one after the other.
-/

namespace BurnRate

variable {α β ε : Type} {f : α → Except ε β}

lemma exists_forall₂_iff {R : α → β → Prop} {l : List α} :
    (∃ ys, List.Forall₂ R l ys) ↔ ∀ x ∈ l, ∃ y, R x y := by
  induction l with
  | nil => simp
  | cons x l ih =>
    rw [List.forall_mem_cons, ← ih]
    constructor
    · rintro ⟨_, _ | ⟨hx, hl⟩⟩
      exact ⟨⟨_, hx⟩, _, hl⟩
    · rintro ⟨⟨y, hx⟩, ys, hl⟩
      exact ⟨y :: ys, .cons hx hl⟩

lemma mapM_eq_ok_iff {l : List α} {ys : List β} :
    l.mapM f = .ok ys ↔ List.Forall₂ (fun x y => f x = .ok y) l ys := by
  induction l generalizing ys with
  | nil => simp [pure, Except.pure, eq_comm]
  | cons x l ih =>
    rw [List.mapM_cons]
    constructor
    · intro h
      cases hx : f x with
      | error e =>
        rw [hx] at h
        cases h
      | ok y =>
        cases hl : l.mapM f with
        | error e =>
          rw [hx, hl] at h
          cases h
        | ok ys' =>
          rw [hx, hl] at h
          cases h
          exact .cons hx (ih.1 hl)
    · intro h
      cases h with
      | cons hx hl =>
        rw [hx, ih.2 hl]
        rfl

lemma mapM_ok_iff {l : List α} : (∃ ys, l.mapM f = .ok ys) ↔ ∀ x ∈ l, ∃ y, f x = .ok y := by
  simp only [mapM_eq_ok_iff, exists_forall₂_iff]

lemma bind_eq_ok_iff {γ : Type} {x : Except ε γ} {g : γ → Except ε β} {y : β} :
    x >>= g = .ok y ↔ ∃ c, x = .ok c ∧ g c = .ok y := by
  cases x <;> simp [bind, Except.bind]

lemma bind_eq_error_iff {γ : Type} {x : Except ε γ} {g : γ → Except ε β} {e : ε} :
    x >>= g = .error e ↔ x = .error e ∨ ∃ c, x = .ok c ∧ g c = .error e := by
  cases x <;> simp [bind, Except.bind]

lemma mapError_ok_iff {ε' : Type} {g : ε → ε'} {x : Except ε α} {a : α} :
    x.mapError g = .ok a ↔ x = .ok a := by
  cases x <;> simp [Except.mapError]

lemma eq_ok_of_toOption {x : Except ε α} {a : α} (h : x.toOption = some a) : x = .ok a := by
  cases x with
  | error e => cases h
  | ok b => exact congrArg Except.ok (Option.some.inj h)

lemma exists_of_mem_forall₂ {R : α → β → Prop} {l : List α} {ys : List β}
    (h : List.Forall₂ R l ys) {y : β} (hy : y ∈ ys) : ∃ x ∈ l, R x y := by
  induction h with
  | nil => cases hy
  | cons hx _ ih =>
    rcases List.mem_cons.1 hy with rfl | hy
    · exact ⟨_, List.mem_cons_self, hx⟩
    · obtain ⟨x, hmem, hxy⟩ := ih hy
      exact ⟨x, List.mem_cons_of_mem _ hmem, hxy⟩

lemma forall₂_append_left_iff {R : α → β → Prop} {l m : List α} {ys : List β} :
    List.Forall₂ R (l ++ m) ys ↔
      ∃ us vs, List.Forall₂ R l us ∧ List.Forall₂ R m vs ∧ ys = us ++ vs := by
  constructor
  · intro h
    induction l generalizing ys with
    | nil => exact ⟨[], ys, .nil, h, rfl⟩
    | cons x l ih =>
      rw [List.cons_append, List.forall₂_cons_left_iff] at h
      obtain ⟨y, ys, hxy, h, rfl⟩ := h
      obtain ⟨us, vs, hl, hm, rfl⟩ := ih h
      exact ⟨y :: us, vs, .cons hxy hl, hm, rfl⟩
  · rintro ⟨us, vs, hl, hm, rfl⟩
    exact List.rel_append hl hm

lemma ok_of_then_ok {x : Except ε Unit} {y : Except ε β} {b : β}
    (h : (do x; y) = .ok b) : x = .ok () ∧ y = .ok b := by
  cases x with
  | error e => cases h
  | ok u => exact ⟨rfl, h⟩

/-- The error of a list is that of its first item that has one. -/
lemma mapM_error_iff {l : List α} {e : ε} :
    l.mapM f = .error e ↔
      ∃ before x after, l = before ++ x :: after ∧ (∀ y ∈ before, ∃ z, f y = .ok z) ∧
        f x = .error e := by
  induction l with
  | nil => simp [pure, Except.pure]
  | cons x l ih =>
    rw [List.mapM_cons]
    constructor
    · intro h
      cases hx : f x with
      | error e' =>
        rw [hx] at h
        cases h
        exact ⟨[], x, l, rfl, by simp, hx⟩
      | ok y =>
        cases hl : l.mapM f with
        | error e' =>
          rw [hx, hl] at h
          cases h
          obtain ⟨before, z, after, rfl, hbefore, hz⟩ := ih.1 hl
          exact ⟨x :: before, z, after, rfl, by simpa [hx] using hbefore, hz⟩
        | ok ys =>
          rw [hx, hl] at h
          cases h
    · rintro ⟨before, z, after, hl, hbefore, hz⟩
      cases before with
      | nil =>
        obtain ⟨rfl, rfl⟩ := List.cons.inj hl
        rw [hz]
        rfl
      | cons y before =>
        obtain ⟨rfl, rfl⟩ := List.cons.inj hl
        obtain ⟨⟨w, hw⟩, hbefore⟩ := List.forall_mem_cons.1 hbefore
        rw [hw, ih.2 ⟨before, z, after, rfl, hbefore, hz⟩]
        rfl

/-! ### Something read at most once -/

lemma forall₂_toList_none_iff {R : α → β → Prop} {l : List α} :
    List.Forall₂ R l (none : Option β).toList ↔ l = [] := by
  simp

lemma forall₂_toList_some_iff {R : α → β → Prop} {l : List α} {y : β} :
    List.Forall₂ R l (some y).toList ↔ ∃ x, l = [x] ∧ R x y := by
  simp [List.forall₂_cons_right_iff, and_comm]

lemma forall₂_concat_toList_iff {R : α → β → Prop} {l : List α} {x : α} {y? : Option β} :
    List.Forall₂ R (l ++ [x]) y?.toList ↔ l = [] ∧ ∃ y, R x y ∧ y? = some y := by
  cases y? with
  | none => simp
  | some y =>
    rw [forall₂_toList_some_iff]
    constructor
    · rintro ⟨z, hl, hz⟩
      obtain ⟨rfl, rfl⟩ : l = [] ∧ x = z := by simpa [List.append_eq_singleton_iff] using hl
      exact ⟨rfl, y, hz, rfl⟩
    · rintro ⟨rfl, z, hz, hy⟩
      cases hy
      exact ⟨x, rfl, hz⟩

lemma once_eq_ok_iff {γ : Type} {o : Option γ} {e : ε} {x : Except ε α} {g : α → β} {y : β} :
    (if o.isSome then .error e else do return g (← x) : Except ε β) = .ok y ↔
      o = none ∧ ∃ a, x = .ok a ∧ y = g a := by
  cases o with
  | none =>
    rw [if_neg (by simp), bind_eq_ok_iff]
    simp only [pure, Except.pure, Except.ok.injEq, true_and, eq_comm]
  | some c => simp

end BurnRate
