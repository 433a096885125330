import BurnRate.Pipeline
import Mathlib.Data.List.Forall2
import Mathlib.Data.List.Nodup
import Mathlib.Tactic.Common

/-!
What a pipeline holds after any sequence of calls, in terms of the objectives it accepted.

An objective is accepted when its registration succeeds. The accepted objectives decide everything
else: the rules, the size, and the answer to the next registration.
-/

namespace BurnRate

/-- What a caller asks of a pipeline. -/
inductive Call where
  | register (s : Slo)
  | registerAll (ss : List Slo)

/-- The objectives of a call, in order. -/
def Call.slos : Call → List Slo
  | register s => [s]
  | registerAll ss => ss

namespace Pipeline

/-- The objectives of a list that are accepted: those before the first that fails. -/
def acceptedOf (p : Pipeline) : List Slo → List Slo
  | [] => []
  | s :: ss =>
    match p.register s with
    | .ok q => s :: q.acceptedOf ss
    | .error _ => []

/-- The pipeline behind a sequence of calls, whatever they answer. -/
def run (p : Pipeline) (cs : List Call) : Pipeline :=
  cs.foldl (fun p c => (p.registerEach c.slos).1) p

/-- The objectives that a sequence of calls accepts. -/
def accepted (p : Pipeline) : List Call → List Slo
  | [] => []
  | c :: cs => p.acceptedOf c.slos ++ (p.registerEach c.slos).1.accepted cs

variable {p q : Pipeline} {s : Slo}

@[simp] lemma run_nil (p : Pipeline) : p.run [] = p := rfl
@[simp] lemma run_cons (p : Pipeline) (c : Call) (cs : List Call) :
    p.run (c :: cs) = (p.registerEach c.slos).1.run cs := rfl

/-! ### One registration -/

/-- The pipeline behind an objective that was accepted. -/
lemma register_ok (h : p.register s = .ok q) :
    s.name ∉ p.registered ∧ ∃ rs, s.rules = .ok rs ∧ q.name = p.name ∧
      q.rules = p.rules ++ rs ∧ q.registered = s.name :: p.registered := by
  unfold register at h
  split at h
  · cases h
  · next hnew =>
    split at h
    · cases h
    · next rs hrs =>
      cases h
      exact ⟨hnew, rs, hrs, rfl, rfl, rfl⟩

lemma register_of_mem (h : s.name ∈ p.registered) :
    p.register s = .error (.duplicateSlo s.name) := by
  simp [register, h]

lemma register_of_error {e : RenderError} (hnew : s.name ∉ p.registered)
    (h : s.rules = .error e) : p.register s = .error (.expansion (.render e)) := by
  simp only [register, hnew, dite_false, h]

lemma register_of_ok {rs : List Rule} (hnew : s.name ∉ p.registered) (h : s.rules = .ok rs) :
    ∃ q, p.register s = .ok q := by
  simp only [register, hnew, dite_false]
  split
  · next e he => rw [h] at he; cases he
  · exact ⟨_, rfl⟩

lemma register_eq_duplicate_iff :
    p.register s = .error (.duplicateSlo s.name) ↔ s.name ∈ p.registered := by
  refine ⟨fun h => ?_, register_of_mem⟩
  by_contra hnew
  cases hrs : s.rules with
  | error e => rw [register_of_error hnew hrs] at h; cases h
  | ok rs =>
    obtain ⟨q, hq⟩ := register_of_ok hnew hrs
    rw [hq] at h; cases h

lemma registerEach_cons_ok (h : p.register s = .ok q) (ss : List Slo) :
    p.registerEach (s :: ss) = q.registerEach ss := by
  simp only [registerEach, h]

lemma registerEach_cons_error {e : PipelineError} (h : p.register s = .error e)
    (ss : List Slo) : p.registerEach (s :: ss) = (p, .error e) := by
  simp only [registerEach, h]

/-- Registering two lists in a row is registering the second behind the first, unless that
failed. -/
lemma registerEach_append (p : Pipeline) (as bs : List Slo) :
    p.registerEach (as ++ bs) =
      match p.registerEach as with
      | (q, .ok ()) => q.registerEach bs
      | (q, .error e) => (q, .error e) := by
  induction as generalizing p with
  | nil => rfl
  | cons a as ih =>
    cases ha : p.register a with
    | error e => rw [List.cons_append, registerEach_cons_error ha, registerEach_cons_error ha]
    | ok q => rw [List.cons_append, registerEach_cons_ok ha, registerEach_cons_ok ha, ih]

/-- A list is registered as a whole if none of its objectives fails, and then it leaves the pipeline
that registering them one after the other does. -/
lemma registerAll_eq_ok_iff {ss : List Slo} :
    p.registerAll ss = .ok q ↔ p.registerEach ss = (q, .ok ()) := by
  unfold registerAll
  rcases p.registerEach ss with ⟨q', e | ⟨⟩⟩ <;> simp

/-- It fails with the error of the first objective that does. -/
lemma registerAll_eq_error_iff {ss : List Slo} {e : PipelineError} :
    p.registerAll ss = .error e ↔ (p.registerEach ss).2 = .error e := by
  unfold registerAll
  rcases p.registerEach ss with ⟨q', e' | ⟨⟩⟩ <;> simp

lemma registerAll_append (p : Pipeline) (as bs : List Slo) :
    p.registerAll (as ++ bs) = (p.registerAll as).bind (·.registerAll bs) := by
  unfold registerAll
  rw [registerEach_append]
  rcases p.registerEach as with ⟨q, e | ⟨⟩⟩ <;> rfl

lemma registerAll_cons_ok (h : p.register s = .ok q) (ss : List Slo) :
    p.registerAll (s :: ss) = q.registerAll ss := by
  rw [registerAll, registerEach_cons_ok h, registerAll]

lemma registerAll_cons_error {e : PipelineError} (h : p.register s = .error e)
    (ss : List Slo) : p.registerAll (s :: ss) = .error e := by
  rw [registerAll, registerEach_cons_error h]

/-- A list is registered when its names are new and distinct, and all rules can be made. -/
lemma registerAll_ok_iff {ss : List Slo} :
    (∃ q, p.registerAll ss = .ok q) ↔
    (∀ s ∈ ss, s.name ∉ p.registered) ∧ (ss.map Slo.name).Nodup ∧
      ∀ s ∈ ss, ∃ rs, s.rules = .ok rs := by
  induction ss generalizing p with
  | nil => simp [registerAll, registerEach]
  | cons s ss ih =>
    rw [List.map_cons, List.nodup_cons, List.forall_mem_cons, List.forall_mem_cons]
    by_cases hname : s.name ∈ p.registered
    · rw [registerAll_cons_error (register_of_mem hname)]
      simp [hname]
    cases hrules : s.rules with
    | error e =>
      rw [registerAll_cons_error (register_of_error hname hrules)]
      simp
    | ok rs =>
      obtain ⟨q, hq⟩ := register_of_ok hname hrules
      obtain ⟨-, _, -, -, -, hregistered⟩ := register_ok hq
      rw [registerAll_cons_ok hq, ih, hregistered]
      constructor
      · rintro ⟨hnew, hnodup, hall⟩
        refine ⟨⟨hname, fun t ht => ?_⟩, ⟨fun hmem => ?_, hnodup⟩, ⟨rs, rfl⟩, hall⟩
        · exact fun hmem => hnew t ht (List.mem_cons_of_mem _ hmem)
        · obtain ⟨t, ht, hst⟩ := List.mem_map.1 hmem
          exact hnew t ht (hst ▸ List.mem_cons_self)
      · rintro ⟨⟨-, hnew⟩, ⟨hfresh, hnodup⟩, -, hall⟩
        refine ⟨fun t ht hmem => ?_, hnodup, hall⟩
        rcases List.mem_cons.1 hmem with hst | hmem
        · exact hfresh (hst ▸ List.mem_map_of_mem ht)
        · exact hnew t ht hmem

lemma registerAll_start_ok_iff {name : String} {ss : List Slo} :
    (∃ q, registerAll { name } ss = .ok q) ↔
      (ss.map Slo.name).Nodup ∧ ∀ s ∈ ss, ∃ rs, s.rules = .ok rs := by
  rw [registerAll_ok_iff]
  simp

/-- The accepted objectives are a first part of the list. If it is not the whole list, then the
next objective fails behind them, and its error is the answer. -/
lemma registerEach_eq (p : Pipeline) (ss : List Slo) :
    ∃ q rest, ss = p.acceptedOf ss ++ rest ∧ p.registerEach (p.acceptedOf ss) = (q, .ok ()) ∧
      ((rest = [] ∧ p.registerEach ss = (q, .ok ())) ∨
        ∃ s more e, rest = s :: more ∧ q.register s = .error e ∧
          p.registerEach ss = (q, .error e)) := by
  induction ss generalizing p with
  | nil => exact ⟨p, [], rfl, rfl, .inl ⟨rfl, rfl⟩⟩
  | cons s ss ih =>
    cases hs : p.register s with
    | error e =>
      refine ⟨p, s :: ss, ?_, ?_, .inr ⟨s, ss, e, rfl, hs, registerEach_cons_error hs ss⟩⟩
      · simp [acceptedOf, hs]
      · simp [acceptedOf, hs, registerEach]
    | ok p' =>
      obtain ⟨q, rest, hsplit, hall, hend⟩ := ih p'
      have hacc : p.acceptedOf (s :: ss) = s :: p'.acceptedOf ss := by simp [acceptedOf, hs]
      refine ⟨q, rest, ?_, ?_, ?_⟩
      · rw [hacc, List.cons_append, ← hsplit]
      · rw [hacc, registerEach_cons_ok hs, hall]
      · rwa [registerEach_cons_ok hs]

/-! ### The invariant -/

/-- The pipeline called `name` holds what the accepted objectives brought, in their order. -/
structure Holds (name : String) (p : Pipeline) (acc : List Slo) : Prop where
  name : p.name = name
  registered : p.registered = (acc.map Slo.name).reverse
  rules : ∃ rss, List.Forall₂ (fun s rs => s.rules = .ok rs) acc rss ∧ p.rules = rss.flatten

variable {name : String} {acc : List Slo}

lemma Holds.start (name : String) : Holds name { name } [] :=
  ⟨rfl, rfl, [], .nil, rfl⟩

lemma Holds.mem_iff (h : Holds name p acc) : s.name ∈ p.registered ↔ s.name ∈ acc.map Slo.name := by
  rw [h.registered, List.mem_reverse]

lemma Holds.register (h : Holds name p acc) (hs : p.register s = .ok q) :
    Holds name q (acc ++ [s]) := by
  obtain ⟨-, rs, hrs, hname, hrules, hreg⟩ := register_ok hs
  obtain ⟨rss, hall, hp⟩ := h.rules
  refine ⟨hname.trans h.name, ?_, rss ++ [rs], ?_, ?_⟩
  · rw [hreg, h.registered]; simp
  · exact List.rel_append hall (.cons hrs .nil)
  · rw [hrules, hp]; simp

/-- A list of registrations keeps the invariant, also when it stops at an error. -/
lemma Holds.registerEach (h : Holds name p acc) (ss : List Slo) :
    Holds name (p.registerEach ss).1 (acc ++ p.acceptedOf ss) := by
  induction ss generalizing p acc with
  | nil => simpa [acceptedOf, Pipeline.registerEach] using h
  | cons s ss ih =>
    cases hs : p.register s with
    | error e => simpa [acceptedOf, hs, registerEach_cons_error hs] using h
    | ok q =>
      rw [registerEach_cons_ok hs]
      simpa [acceptedOf, hs] using ih (h.register hs)

/-- A list that is registered is accepted as a whole. -/
lemma Holds.registerAll {ss : List Slo} (h : Holds name p acc) (hss : p.registerAll ss = .ok q) :
    Holds name q (acc ++ ss) := by
  induction ss generalizing p acc with
  | nil =>
    cases hss
    rwa [List.append_nil]
  | cons s ss ih =>
    cases hs : p.register s with
    | error e =>
      rw [registerAll_cons_error hs] at hss
      cases hss
    | ok p' =>
      rw [registerAll_cons_ok hs] at hss
      rw [List.append_cons]
      exact ih (h.register hs) hss

lemma Holds.run (h : Holds name p acc) (cs : List Call) :
    Holds name (p.run cs) (acc ++ p.accepted cs) := by
  induction cs generalizing p acc with
  | nil => simpa [accepted] using h
  | cons c cs ih => simpa [accepted] using ih (h.registerEach c.slos)

lemma Holds.nodup (h : Holds name p acc) : (acc.map Slo.name).Nodup := by
  have := p.nodup
  rwa [h.registered, List.nodup_reverse] at this

lemma Holds.size (h : Holds name p acc) : p.size = acc.length := by
  simp [Pipeline.size, h.registered]

/-! ### The answers of a pipeline, by its history -/

/-- What a pipeline does that has accepted the given objectives and no others. -/
structure Refines (name : String) (p : Pipeline) (acc : List Slo) : Prop where
  /-- A name is refused if it was accepted before, whether or not the rules can be made. -/
  duplicate (s : Slo) :
    p.register s = .error (.duplicateSlo s.name) ↔ s.name ∈ acc.map Slo.name
  /-- Any other objective fails with the error of its rules, if they have one. -/
  unrendered (s : Slo) (e : RenderError) : s.name ∉ acc.map Slo.name →
    (p.register s = .error (.expansion (.render e)) ↔ s.rules = .error e)
  /-- All others are accepted. -/
  fresh (s : Slo) : s.name ∉ acc.map Slo.name →
    ((∃ q, p.register s = .ok q) ↔ ∃ rs, s.rules = .ok rs)
  /-- A registration that fails changes nothing. -/
  atomic (s : Slo) (e : PipelineError) : p.register s = .error e →
    p.registerEach [s] = (p, .error e)
  /-- A name whose rules could not be made is still free. -/
  retry (s t : Slo) (rs : List Rule) : s.name ∉ acc.map Slo.name → (∃ e, s.rules = .error e) →
    t.name = s.name → t.rules = .ok rs → ∃ q, (p.registerEach [s]).1.register t = .ok q
  /-- A list is accepted up to its first objective that fails, whose error is the answer. -/
  stops (ss : List Slo) : ∃ q rest, ss = p.acceptedOf ss ++ rest ∧
    p.registerEach (p.acceptedOf ss) = (q, .ok ()) ∧
      ((rest = [] ∧ p.registerEach ss = (q, .ok ())) ∨
        ∃ s more e, rest = s :: more ∧ q.register s = .error e ∧
          p.registerEach ss = (q, .error e))
  /-- Two lists in a row are as good as one. -/
  append (as bs : List Slo) : p.registerEach (as ++ bs) =
    match p.registerEach as with
    | (q, .ok ()) => q.registerEach bs
    | (q, .error e) => (q, .error e)
  /-- As a whole, a list answers as its objectives do one after the other, and leaves their
  pipeline. -/
  all (ss : List Slo) : (∀ q, p.registerAll ss = .ok q ↔ p.registerEach ss = (q, .ok ())) ∧
    ∀ e, p.registerAll ss = .error e ↔ (p.registerEach ss).2 = .error e
  appendAll (as bs : List Slo) :
    p.registerAll (as ++ bs) = (p.registerAll as).bind (·.registerAll bs)
  size : p.size = acc.length
  isEmpty : p.isEmpty = acc.isEmpty
  nodup : (acc.map Slo.name).Nodup
  /-- The group has the rules of the accepted objectives, then those of the kinds, then the
  alerts. -/
  build (r : Registry) : ∃ rss, List.Forall₂ (fun s rs => s.rules = .ok rs) acc rss ∧
    p.build r = ⟨[⟨name, rss.flatten ++ r.ratioRules ++ alertRules⟩]⟩

lemma Holds.unrendered (h : Holds name p acc) (e : RenderError)
    (hnew : s.name ∉ acc.map Slo.name) :
    p.register s = .error (.expansion (.render e)) ↔ s.rules = .error e := by
  rw [← h.mem_iff] at hnew
  refine ⟨fun he => ?_, register_of_error hnew⟩
  cases hrs : s.rules with
  | error e' => rw [register_of_error hnew hrs] at he; cases he; rfl
  | ok rs =>
    obtain ⟨q, hq⟩ := register_of_ok hnew hrs
    rw [hq] at he; cases he

lemma Holds.fresh (h : Holds name p acc) (hnew : s.name ∉ acc.map Slo.name) :
    (∃ q, p.register s = .ok q) ↔ ∃ rs, s.rules = .ok rs := by
  rw [← h.mem_iff] at hnew
  constructor
  · rintro ⟨q, hq⟩
    obtain ⟨-, rs, hrs, -⟩ := register_ok hq
    exact ⟨rs, hrs⟩
  · rintro ⟨rs, hrs⟩
    exact register_of_ok hnew hrs

lemma Holds.retry {t : Slo} {rs : List Rule} (h : Holds name p acc)
    (hnew : s.name ∉ acc.map Slo.name) (hs : ∃ e, s.rules = .error e) (hname : t.name = s.name)
    (ht : t.rules = .ok rs) : ∃ q, (p.registerEach [s]).1.register t = .ok q := by
  rw [← h.mem_iff] at hnew
  obtain ⟨e, he⟩ := hs
  rw [registerEach_cons_error (register_of_error hnew he)]
  exact register_of_ok (hname ▸ hnew) ht

lemma Holds.build (h : Holds name p acc) (r : Registry) :
    ∃ rss, List.Forall₂ (fun s rs => s.rules = .ok rs) acc rss ∧
      p.build r = ⟨[⟨name, rss.flatten ++ r.ratioRules ++ alertRules⟩]⟩ := by
  obtain ⟨rss, hall, hp⟩ := h.rules
  exact ⟨rss, hall, by rw [Pipeline.build, hp, h.name]⟩

/-- **Refinement**: after any sequence of calls, a pipeline behaves as the objectives that it
accepted on the way say. -/
theorem run_refines (name : String) (cs : List Call) :
    Refines name (run { name } cs) (accepted { name } cs) := by
  have h : Holds name (run { name } cs) (accepted { name } cs) := (Holds.start name).run cs
  exact
    { duplicate := fun s => register_eq_duplicate_iff.trans h.mem_iff
      unrendered := fun s e => h.unrendered e
      fresh := fun s => h.fresh
      atomic := fun s e he => registerEach_cons_error he []
      retry := fun s t rs => h.retry
      stops := registerEach_eq _
      append := registerEach_append _
      all := fun _ => ⟨fun _ => registerAll_eq_ok_iff, fun _ => registerAll_eq_error_iff⟩
      appendAll := registerAll_append _
      size := h.size
      isEmpty := by simp [Pipeline.isEmpty, h.registered]
      nodup := h.nodup
      build := h.build }

end Pipeline

end BurnRate
