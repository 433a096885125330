import BurnRate.Definition.Body
import BurnRate.Proofs.LabelLookups
import BurnRate.Proofs.Results
import Mathlib.Data.List.Induction
import Mathlib.Data.Set.List
import Mathlib.Tactic.MkIffOfInductiveProp

/-!
What is known of a body once its fields have been read, one after the other.

Each key stands for one part of what is read, or for none. A part is filled by the one value that
stands under its keys.
-/

namespace BurnRate

/-! ### Keys -/

namespace Kind

def deadlineKeys : Kind → List String
  | batch => ["deadline"]
  | _ => []

/-- The request class goes by two keys. -/
def requestClassKeys : Kind → List String
  | latency => ["request_class", "requestClass"]
  | _ => []

def textKeys : Kind → List String
  | batch => ["volume", "throughput"]
  | errorRate => ["errors", "total"]
  | latency => ["total", "observation"]

/-- The keys of the fields that a kind adds to the shared ones. -/
def ownKeys (k : Kind) : List String := k.deadlineKeys ++ k.requestClassKeys ++ k.textKeys

end Kind

lemma RequestClass.ofText?_eq_some_iff {c : RequestClass} {text : String} :
    ofText? text = some c ↔ text = c.text := by
  constructor
  · intro h
    have hc := List.find?_some h
    exact (beq_iff_eq.1 hc).symm
  · rintro rfl
    exact ofText?_text c

namespace Definition

open Yaml (Value)

/-- The keys of the fields that all kinds share. -/
def sharedKeys : List String := ["name", "budget", "labels", "annotations"]

variable {k : Kind} {key : String} {keys : List String} {v : Value}
  {done entries : List (String × Value)} {e : String × Value} {p q : Parts} {s t : Shared}

/-- A mapping whose keys are texts. -/
def asMapping (entries : List (String × Value)) : Value :=
  .mapping (entries.map fun e => (.text e.1, e.2))

/-- The values that stand under some keys. -/
def given (entries : List (String × Value)) (keys : List String) : List Value :=
  (entries.filter (·.1 ∈ keys)).map (·.2)

lemma given_concat_of_mem (h : e.1 ∈ keys) :
    given (done ++ [e]) keys = given done keys ++ [e.2] := by
  simp [given, h]

lemma given_concat_of_notMem (h : e.1 ∉ keys) :
    given (done ++ [e]) keys = given done keys := by
  simp [given, h]

lemma filter_concat_of_pos {α : Type} {P : α → Bool} {l : List α} {x : α} (h : P x) :
    (l ++ [x]).filter P = l.filter P ++ [x] := by
  simp [h]

lemma filter_concat_of_neg {α : Type} {P : α → Bool} {l : List α} {x : α} (h : ¬ P x) :
    (l ++ [x]).filter P = l.filter P := by
  simp [h]

/-- A key stands for one field of the kind, or for none. -/
lemma ownField?_cases (k : Kind) (key : String) :
    (key ∈ k.deadlineKeys ∧ key ∉ k.requestClassKeys ∧ key ∉ k.textKeys ∧
      ownField? k key = some .deadline) ∨
    (key ∉ k.deadlineKeys ∧ key ∈ k.requestClassKeys ∧ key ∉ k.textKeys ∧
      ownField? k key = some .requestClass) ∨
    (key ∉ k.deadlineKeys ∧ key ∉ k.requestClassKeys ∧ key ∈ k.textKeys ∧
      ownField? k key = some (.text key)) ∨
    (key ∉ k.ownKeys ∧ ownField? k key = none) := by
  unfold ownField?
  split
  case h_10 =>
    cases k <;>
      simp_all [Kind.ownKeys, Kind.deadlineKeys, Kind.requestClassKeys, Kind.textKeys]
  all_goals simp [Kind.deadlineKeys, Kind.requestClassKeys, Kind.textKeys]

/-! ### Values without tags -/

lemma untagged_of_hasTag (h : v.hasTag = false) : v.untagged = v := by
  cases v with
  | tagged tag v => cases h
  | _ => rfl

lemma anyFieldTag_eq_false_iff {fields : List (Value × Value)} :
    Value.anyFieldTag fields = false ↔ ∀ f ∈ fields, f.1.hasTag = false ∧ f.2.hasTag = false := by
  induction fields with
  | nil => simp [Value.anyFieldTag]
  | cons f fields ih => simp [Value.anyFieldTag, ih, and_assoc]

lemma textOf_eq_ok_iff {text : String} : textOf v = .ok text ↔ v = .text text := by
  cases v <;> simp [textOf]

lemma durationOf_eq_ok_iff {d : Duration} :
    durationOf v = .ok d ↔ ∃ text, v = .text text ∧ Duration.parse? text = some d := by
  cases v with
  | text text =>
    simp only [durationOf]
    split <;> simp_all
  | _ => simp [durationOf]

lemma requestClassOf_eq_ok_iff {c : RequestClass} (h : v.hasTag = false) :
    requestClassOf v = .ok c ↔ v = .text c.text := by
  cases v with
  | text text =>
    rw [Value.text.injEq, ← RequestClass.ofText?_eq_some_iff, requestClassOf, requestClassOf.named]
    split <;> simp_all
  | tagged tag v => cases h
  | _ => simp [requestClassOf]

/-- What a number is as a binary floating point number. -/
inductive IsNumber : Value → Float → Prop where
  | nonneg (n : ℕ) : IsNumber (.int n) (Decimal.nearest n 0)
  | neg (n : ℕ) (h : 0 < n) : IsNumber (.int (-n)) (-Decimal.nearest n 0)
  | float (x : Float) : IsNumber (.float x) x

lemma numberOf_eq_ok_iff {x : Float} : numberOf v = .ok x ↔ IsNumber v x := by
  constructor
  · intro h
    cases v with
    | int n =>
      simp only [numberOf, Except.ok.injEq] at h
      subst h
      obtain ⟨n, rfl | rfl⟩ := n.eq_nat_or_neg
      · rw [if_neg (by omega), Int.natAbs_natCast]
        exact .nonneg n
      · split
        · rw [Int.natAbs_neg, Int.natAbs_natCast]
          exact .neg n (by omega)
        · obtain rfl : n = 0 := by omega
          exact .nonneg 0
    | float y =>
      cases h
      exact .float x
    | _ => cases h
  · intro h
    cases h with
    | nonneg n => simp [numberOf]
    | neg n h => simp [numberOf, h]
    | float x => rfl

/-- A mapping from texts to texts, as a label set. Were a key there twice, its last value would
count. -/
def IsLabels (v : Value) (l : Labels) : Prop :=
  ∃ pairs : List (String × String), v = asMapping (pairs.map fun e => (e.1, .text e.2)) ∧
    ∀ n, l.get? n = pairs.reverse.lookup n

lemma mapM_textOf_eq_ok_iff {fields : List (Value × Value)} {pairs : List (String × String)} :
    fields.mapM (fun f => do return (← textOf f.1, ← textOf f.2)) = .ok pairs ↔
      fields = pairs.map fun e => (.text e.1, .text e.2) := by
  rw [mapM_eq_ok_iff, ← List.forall₂_eq_eq_eq, List.forall₂_map_right_iff]
  refine iff_of_eq (congrArg (List.Forall₂ · fields pairs) (funext₂ fun f e => propext ?_))
  simp [bind_eq_ok_iff, textOf_eq_ok_iff, pure, Except.pure, Prod.ext_iff]

lemma labelsOf_eq_ok_iff {l : Labels} : labelsOf v = .ok l ↔ IsLabels v l := by
  cases v with
  | mapping fields =>
    rw [labelsOf, bind_eq_ok_iff]
    refine exists_congr fun pairs => and_congr ?_ ?_
    · rw [asMapping, List.map_map, Value.mapping.injEq]
      exact mapM_textOf_eq_ok_iff
    · simp only [pure, Except.pure, Except.ok.injEq, ← Labels.get?_ofList]
      exact ⟨fun h _ => h ▸ rfl, fun h => (Labels.ext_get? h).symm⟩
  | _ => simp [labelsOf, IsLabels, asMapping]

/-! ### The fields of a kind -/

namespace Parts

/-- What has been read once some fields are. -/
@[mk_iff]
structure Holds (k : Kind) (done : List (String × Value)) (p : Parts) : Prop where
  /-- No value is given and none is known, or one is given and this is what it says. -/
  deadline : List.Forall₂ (durationOf · = .ok ·) (given done k.deadlineKeys) p.deadline?.toList
  requestClass : List.Forall₂ (requestClassOf · = .ok ·) (given done k.requestClassKeys)
    p.requestClass?.toList
  /-- The texts are those that are given, the last one first. -/
  texts : done.filter (·.1 ∈ k.textKeys) = (p.texts.map fun e => (e.1, .text e.2)).reverse
  once : (p.texts.map (·.1)).Nodup
  /-- Nothing is known yet of the other fields. -/
  others : done.filter (·.1 ∉ k.ownKeys) = p.others.reverse

lemma holds_nil : Holds k [] p ↔ p = {} := by
  constructor
  · rintro ⟨hdeadline, hclass, htexts, -, hothers⟩
    obtain ⟨deadline?, requestClass?, texts, others⟩ := p
    simp_all [given]
  · rintro rfl
    exact ⟨.nil, .nil, rfl, .nil, rfl⟩

lemma holds_concat_deadline (hd : e.1 ∈ k.deadlineKeys) (hc : e.1 ∉ k.requestClassKeys)
    (ht : e.1 ∉ k.textKeys) :
    Holds k (done ++ [e]) q ↔ ∃ p, Holds k done p ∧ p.deadline? = none ∧
      ∃ d, durationOf e.2 = .ok d ∧ q = { p with deadline? := some d } := by
  have hown : e.1 ∈ k.ownKeys := by simp [Kind.ownKeys, hd]
  rw [holds_iff, given_concat_of_mem hd, given_concat_of_notMem hc,
    filter_concat_of_neg (by simpa using ht), filter_concat_of_neg (by simpa using hown)]
  simp only [holds_iff, forall₂_concat_toList_iff]
  constructor
  · rintro ⟨⟨hnil, d, hd, hq⟩, hrest⟩
    refine ⟨{ q with deadline? := none }, ⟨?_, hrest⟩, rfl, d, hd, by rw [← hq]⟩
    exact forall₂_toList_none_iff.2 hnil
  · rintro ⟨p, ⟨hdeadline, hrest⟩, hnone, d, hd, rfl⟩
    rw [hnone, forall₂_toList_none_iff] at hdeadline
    exact ⟨⟨hdeadline, d, hd, rfl⟩, hrest⟩

lemma holds_concat_requestClass (hd : e.1 ∉ k.deadlineKeys) (hc : e.1 ∈ k.requestClassKeys)
    (ht : e.1 ∉ k.textKeys) :
    Holds k (done ++ [e]) q ↔ ∃ p, Holds k done p ∧ p.requestClass? = none ∧
      ∃ c, requestClassOf e.2 = .ok c ∧ q = { p with requestClass? := some c } := by
  have hown : e.1 ∈ k.ownKeys := by simp [Kind.ownKeys, hc]
  rw [holds_iff, given_concat_of_notMem hd, given_concat_of_mem hc,
    filter_concat_of_neg (by simpa using ht), filter_concat_of_neg (by simpa using hown)]
  simp only [holds_iff, forall₂_concat_toList_iff]
  constructor
  · rintro ⟨hdeadline, ⟨hnil, c, hc, hq⟩, hrest⟩
    refine ⟨{ q with requestClass? := none }, ⟨hdeadline, ?_, hrest⟩, rfl, c, hc, by rw [← hq]⟩
    exact forall₂_toList_none_iff.2 hnil
  · rintro ⟨p, ⟨hdeadline, hclass, hrest⟩, hnone, c, hc, rfl⟩
    rw [hnone, forall₂_toList_none_iff] at hclass
    exact ⟨hdeadline, ⟨hclass, c, hc, rfl⟩, hrest⟩

lemma holds_concat_text (hd : e.1 ∉ k.deadlineKeys) (hc : e.1 ∉ k.requestClassKeys)
    (ht : e.1 ∈ k.textKeys) :
    Holds k (done ++ [e]) q ↔ ∃ p, Holds k done p ∧ p.texts.lookup e.1 = none ∧
      ∃ text, textOf e.2 = .ok text ∧ q = { p with texts := (e.1, text) :: p.texts } := by
  have hown : e.1 ∈ k.ownKeys := by simp [Kind.ownKeys, ht]
  rw [holds_iff, given_concat_of_notMem hd, given_concat_of_notMem hc,
    filter_concat_of_pos (by simpa using ht), filter_concat_of_neg (by simpa using hown)]
  simp only [Labels.lookup_eq_none_iff, textOf_eq_ok_iff]
  constructor
  · rintro ⟨hdeadline, hclass, htexts, honce, hothers⟩
    obtain ⟨⟨key, text⟩, texts, hq, rfl, hdone⟩ :=
      List.map_eq_cons_iff.1 (List.reverse_eq_iff.1 htexts.symm |>.trans List.reverse_concat)
    rw [hq, List.map_cons, List.nodup_cons] at honce
    refine ⟨{ q with texts }, ⟨hdeadline, hclass, ?_, honce.2, hothers⟩, honce.1, text, rfl, ?_⟩
    · rw [hdone, List.reverse_reverse]
    · rw [← hq]
  · rintro ⟨p, ⟨hdeadline, hclass, htexts, honce, hothers⟩, hnew, text, htext, rfl⟩
    refine ⟨hdeadline, hclass, ?_, List.nodup_cons.2 ⟨hnew, honce⟩, hothers⟩
    rw [htexts, List.map_cons, List.reverse_cons, ← htext]

lemma holds_concat_other (hk : e.1 ∉ k.ownKeys) :
    Holds k (done ++ [e]) q ↔ ∃ p, Holds k done p ∧ q = { p with others := e :: p.others } := by
  have hd : e.1 ∉ k.deadlineKeys := fun h => hk (by simp [Kind.ownKeys, h])
  have hc : e.1 ∉ k.requestClassKeys := fun h => hk (by simp [Kind.ownKeys, h])
  have ht : e.1 ∉ k.textKeys := fun h => hk (by simp [Kind.ownKeys, h])
  rw [holds_iff, given_concat_of_notMem hd, given_concat_of_notMem hc,
    filter_concat_of_neg (by simpa using ht), filter_concat_of_pos (by simpa using hk)]
  constructor
  · rintro ⟨hdeadline, hclass, htexts, honce, hothers⟩
    refine ⟨{ q with others := (done.filter (·.1 ∉ k.ownKeys)).reverse },
      ⟨hdeadline, hclass, htexts, honce, (List.reverse_reverse _).symm⟩, ?_⟩
    rw [← List.reverse_concat, hothers, List.reverse_reverse]
  · rintro ⟨p, ⟨hdeadline, hclass, htexts, honce, hothers⟩, rfl⟩
    refine ⟨hdeadline, hclass, htexts, honce, ?_⟩
    rw [hothers, List.reverse_cons]

/-- What is known after one more field is what reading that field makes of what was known. -/
lemma holds_concat (htag : e.2.hasTag = false) :
    Holds k (done ++ [e]) q ↔ ∃ p, Holds k done p ∧ p.add k (.text e.1, e.2) = .ok q := by
  -- one case for each part that the key can stand for
  rcases ownField?_cases k e.1 with ⟨hd, hc, ht, hown⟩ | ⟨hd, hc, ht, hown⟩ | ⟨hd, hc, ht, hown⟩ |
    ⟨hk, hown⟩
  all_goals simp only [add, Value.untagged, hown, untagged_of_hasTag htag]
  · simp only [once_eq_ok_iff, holds_concat_deadline hd hc ht]
  · simp only [once_eq_ok_iff, holds_concat_requestClass hd hc ht]
  · simp only [once_eq_ok_iff, holds_concat_text hd hc ht]
  · simp [holds_concat_other hk, htag, pure, Except.pure, eq_comm]

/-- Reading all the fields, one after the other. -/
lemma foldlM_add_eq_ok_iff (htag : ∀ e ∈ entries, e.2.hasTag = false) :
    (entries.map fun e => (Value.text e.1, e.2)).foldlM (add k) {} = .ok p ↔ Holds k entries p := by
  -- from the end of the list, where the field stands that is read last
  induction entries using List.reverseRecOn generalizing p with
  | nil => simp [holds_nil, pure, Except.pure, eq_comm]
  | append_singleton entries e ih =>
    rw [List.forall_mem_append, List.forall_mem_singleton] at htag
    rw [List.map_append, List.foldlM_append, bind_eq_ok_iff, holds_concat htag.2]
    simp only [ih htag.1, List.map_cons, List.map_nil, List.foldlM_cons, List.foldlM_nil, bind_pure]

lemma exists_text_of_add {f : Value × Value} (htag : f.1.hasTag = false)
    (h : p.add k f = .ok q) : ∃ key, f.1 = .text key := by
  obtain ⟨key, v⟩ := f
  rw [add, untagged_of_hasTag htag] at h
  split at h
  · next key hkey => exact ⟨key, hkey⟩
  · cases h

/-- Nothing but texts are read as keys. -/
lemma exists_entries_of_foldlM {fields : List (Value × Value)}
    (htag : ∀ f ∈ fields, f.1.hasTag = false ∧ f.2.hasTag = false)
    (h : fields.foldlM (add k) p = .ok q) :
    ∃ entries : List (String × Value), fields = entries.map fun e => (.text e.1, e.2) := by
  induction fields generalizing p with
  | nil => exact ⟨[], rfl⟩
  | cons f fields ih =>
    rw [List.forall_mem_cons] at htag
    rw [List.foldlM_cons] at h
    obtain ⟨p', hp, h⟩ := bind_eq_ok_iff.1 h
    obtain ⟨key, hkey⟩ := exists_text_of_add htag.1.1 hp
    obtain ⟨entries, rfl⟩ := ih htag.2 h
    exact ⟨(key, f.2) :: entries, by rw [List.map_cons, ← hkey]⟩

lemma filter_key_eq {texts : List (String × String)} (h : (texts.map (·.1)).Nodup) :
    texts.filter (·.1 ∈ [key]) = ((texts.lookup key).map (key, ·)).toList := by
  induction texts with
  | nil => rfl
  | cons e texts ih =>
    rw [List.map_cons, List.nodup_cons] at h
    rw [Labels.lookup_cons_ite]
    split
    · next hkey =>
      have hnone : texts.lookup key = none := Labels.lookup_eq_none_iff.2 (hkey ▸ h.1)
      rw [List.filter_cons_of_pos (by simp [hkey]), ih h.2, hnone, hkey]
      rfl
    · next hkey => rw [List.filter_cons_of_neg (by simpa [eq_comm] using hkey), ih h.2]

lemma Holds.given_eq (h : Holds k entries p) (hkey : key ∈ k.textKeys) :
    given entries [key] = ((p.texts.lookup key).map Value.text).toList := by
  have hfilter : entries.filter (·.1 ∈ [key]) =
      (entries.filter (·.1 ∈ k.textKeys)).filter (·.1 ∈ [key]) := by
    rw [List.filter_filter]
    refine List.filter_congr fun e _ => ?_
    simp only [List.mem_singleton]
    by_cases he : e.1 = key <;> simp [he, hkey]
  rw [given, hfilter, h.texts, ← List.map_reverse, List.filter_map]
  have htexts : p.texts.reverse.filter (·.1 ∈ [key]) =
      ((p.texts.lookup key).map (key, ·)).toList.reverse := by
    rw [List.filter_reverse, filter_key_eq h.once]
  change ((p.texts.reverse.filter (·.1 ∈ [key])).map _).map _ = _
  rw [htexts]
  cases p.texts.lookup key <;> rfl

lemma Holds.text_eq_ok_iff (h : Holds k entries p) (hkey : key ∈ k.textKeys) {text : String} :
    p.text key = .ok text ↔ given entries [key] = [.text text] := by
  rw [h.given_eq hkey, Parts.text]
  cases p.texts.lookup key <;> simp

lemma count_key_eq (entries : List (String × Value)) (key : String) :
    (entries.map (·.1)).count key = (given entries [key]).length := by
  rw [given, List.length_map, ← List.countP_eq_length_filter, List.count, List.countP_map]
  refine List.countP_congr fun e _ => ?_
  simp

lemma nodup_keys (h : ∀ key ∈ k.textKeys, ∃ text, given entries [key] = [.text text]) :
    ((entries.filter (·.1 ∈ k.textKeys)).map (·.1)).Nodup := by
  rw [List.nodup_iff_count_le_one]
  intro key
  by_cases hkey : key ∈ k.textKeys
  · obtain ⟨text, hgiven⟩ := h key hkey
    calc ((entries.filter (·.1 ∈ k.textKeys)).map (·.1)).count key
        ≤ (entries.map (·.1)).count key := (List.filter_sublist.map _).count_le key
      _ = 1 := by rw [count_key_eq, hgiven, List.length_singleton]
  · refine (List.count_eq_zero_of_not_mem ?_).trans_le zero_le_one
    simp [hkey]

/-- Where each text field is given once and as a text, there is what reading them makes known. -/
lemma exists_texts (h : ∀ key ∈ k.textKeys, ∃ text, given entries [key] = [.text text]) :
    ∃ texts : List (String × String), (texts.map (·.1)).Nodup ∧
      entries.filter (·.1 ∈ k.textKeys) = (texts.map fun e => (e.1, .text e.2)).reverse := by
  have htext : ∀ e ∈ entries.filter (·.1 ∈ k.textKeys),
      e ∈ Set.range fun e : String × String => (e.1, Value.text e.2) := fun e he => by
    rw [List.mem_filter, decide_eq_true_eq] at he
    obtain ⟨text, hgiven⟩ := h e.1 he.2
    have hmem : e.2 ∈ given entries [e.1] :=
      List.mem_map.2 ⟨e, List.mem_filter.2 ⟨he.1, by simp⟩, rfl⟩
    rw [hgiven, List.mem_singleton] at hmem
    exact ⟨(e.1, text), Prod.ext rfl hmem.symm⟩
  obtain ⟨texts, htexts⟩ : entries.filter (·.1 ∈ k.textKeys) ∈ Set.range (List.map _) := by
    rw [Set.range_list_map]
    exact htext
  -- no key stands twice, as one value is given for each
  refine ⟨texts.reverse, ?_, by rw [List.map_reverse, List.reverse_reverse, htexts]⟩
  have hnodup := nodup_keys h
  rw [← htexts, List.map_map] at hnodup
  rw [List.map_reverse, List.nodup_reverse]
  exact hnodup

lemma exists_holds {d? : Option Duration} {c? : Option RequestClass}
    (hdeadline : List.Forall₂ (durationOf · = .ok ·) (given entries k.deadlineKeys) d?.toList)
    (hclass : List.Forall₂ (requestClassOf · = .ok ·) (given entries k.requestClassKeys) c?.toList)
    (htexts : ∀ key ∈ k.textKeys, ∃ text, given entries [key] = [.text text]) :
    ∃ p, Holds k entries p ∧ p.deadline? = d? ∧ p.requestClass? = c? := by
  obtain ⟨texts, honce, htexts⟩ := exists_texts htexts
  exact ⟨⟨d?, c?, texts, (entries.filter (·.1 ∉ k.ownKeys)).reverse⟩,
    ⟨hdeadline, hclass, htexts, honce, (List.reverse_reverse _).symm⟩, rfl, rfl⟩

end Parts

/-! ### The shared fields -/

/-- What has been read of the shared fields once some fields are. -/
@[mk_iff]
structure Shared.Holds (done : List (String × Value)) (s : Shared) : Prop where
  name : List.Forall₂ (textOf · = .ok ·) (given done ["name"]) s.name?.toList
  budget : List.Forall₂ (numberOf · = .ok ·) (given done ["budget"]) s.budget?.toList
  labels : List.Forall₂ (labelsOf · = .ok ·) (given done ["labels"]) s.labels?.toList
  annotations : List.Forall₂ (labelsOf · = .ok ·) (given done ["annotations"]) s.annotations?.toList

namespace Shared

lemma holds_nil : Holds [] s ↔ s = {} := by
  constructor
  · rintro ⟨hname, hbudget, hlabels, hannotations⟩
    obtain ⟨name?, budget?, labels?, annotations?⟩ := s
    simp_all [given]
  · rintro rfl
    exact ⟨.nil, .nil, .nil, .nil⟩

lemma holds_concat : Holds (done ++ [e]) t ↔ ∃ s, Holds done s ∧ s.add e = .ok t := by
  obtain ⟨key, v⟩ := e
  by_cases hkey : key ∉ sharedKeys
  · simp only [sharedKeys, List.mem_cons, List.not_mem_nil, or_false, not_or] at hkey
    simp [add, hkey, holds_iff, given_concat_of_notMem, pure, Except.pure]
  -- each key fills a part of its own, which has to be empty before
  simp only [sharedKeys, List.mem_cons, List.not_mem_nil, or_false, not_not] at hkey
  rcases hkey with rfl | rfl | rfl | rfl
  all_goals simp only [add, once_eq_ok_iff, holds_iff, given_concat_of_mem, given_concat_of_notMem,
    List.mem_singleton, String.reduceEq, not_false_eq_true, forall₂_concat_toList_iff]
  all_goals constructor
  · rintro ⟨⟨hnil, text, htext, ht⟩, hrest⟩
    refine ⟨{ t with name? := none }, ⟨?_, hrest⟩, rfl, text, htext, by rw [← ht]⟩
    exact forall₂_toList_none_iff.2 hnil
  · rintro ⟨s, ⟨hname, hrest⟩, hnone, text, htext, rfl⟩
    rw [hnone, forall₂_toList_none_iff] at hname
    exact ⟨⟨hname, text, htext, rfl⟩, hrest⟩
  · rintro ⟨hname, ⟨hnil, x, hx, ht⟩, hrest⟩
    refine ⟨{ t with budget? := none }, ⟨hname, ?_, hrest⟩, rfl, x, hx, by rw [← ht]⟩
    exact forall₂_toList_none_iff.2 hnil
  · rintro ⟨s, ⟨hname, hbudget, hrest⟩, hnone, x, hx, rfl⟩
    rw [hnone, forall₂_toList_none_iff] at hbudget
    exact ⟨hname, ⟨hbudget, x, hx, rfl⟩, hrest⟩
  · rintro ⟨hname, hbudget, ⟨hnil, l, hl, ht⟩, hrest⟩
    refine ⟨{ t with labels? := none }, ⟨hname, hbudget, ?_, hrest⟩, rfl, l, hl, by rw [← ht]⟩
    exact forall₂_toList_none_iff.2 hnil
  · rintro ⟨s, ⟨hname, hbudget, hlabels, hrest⟩, hnone, l, hl, rfl⟩
    rw [hnone, forall₂_toList_none_iff] at hlabels
    exact ⟨hname, hbudget, ⟨hlabels, l, hl, rfl⟩, hrest⟩
  · rintro ⟨hname, hbudget, hlabels, ⟨hnil, l, hl, ht⟩⟩
    refine ⟨{ t with annotations? := none }, ⟨hname, hbudget, hlabels, ?_⟩, rfl, l, hl, ?_⟩
    on_goal 2 => rw [← ht]
    exact forall₂_toList_none_iff.2 hnil
  · rintro ⟨s, ⟨hname, hbudget, hlabels, hannotations⟩, hnone, l, hl, rfl⟩
    rw [hnone, forall₂_toList_none_iff] at hannotations
    exact ⟨hname, hbudget, hlabels, ⟨hannotations, l, hl, rfl⟩⟩

lemma foldlM_add_eq_ok_iff : entries.foldlM add {} = .ok s ↔ Holds entries s := by
  induction entries using List.reverseRecOn generalizing s with
  | nil => simp [holds_nil, pure, Except.pure, eq_comm]
  | append_singleton entries e ih =>
    rw [List.foldlM_append, bind_eq_ok_iff, holds_concat]
    simp only [ih, List.foldlM_cons, List.foldlM_nil, bind_pure]

end Shared

end Definition

end BurnRate
