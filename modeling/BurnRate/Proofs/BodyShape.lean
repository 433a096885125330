import BurnRate.Proofs.BodyFields

/-!
The shape of bodies: which fields a kind asks for, and the objective that they describe.

Every field stands exactly once, under one of its keys and in any place, but label sets may be left
out. Fields under other texts are of no account.
-/

namespace BurnRate.Definition

open Yaml (Value)

variable {k : Kind} {key : String} {keys : List String} {v : Value}
  {entries : List (String × Value)} {p : Parts} {s : Shared}

/-! ### What bodies describe -/

/-- The label set that is given, if one is. -/
def GivenLabels (vs : List Value) (l : Labels) : Prop :=
  vs = [] ∧ l = ∅ ∨ ∃ v, vs = [v] ∧ IsLabels v l

/-- The shared part of the objective that a body describes. -/
@[mk_iff]
structure DescribesObjective (entries : List (String × Value)) (o : Objective) : Prop where
  name : given entries ["name"] = [.text o.name]
  budget : ∃ v, given entries ["budget"] = [v] ∧ IsNumber v o.budget
  labels : GivenLabels (given entries ["labels"]) o.labels
  annotations : GivenLabels (given entries ["annotations"]) o.annotations

/-- The objective of a kind that a body describes. -/
inductive Describes (entries : List (String × Value)) : Kind → Slo → Prop where
  | batch {s : BatchSlo} {deadline : String} (shared : DescribesObjective entries s.toObjective)
      (hdeadline : given entries ["deadline"] = [.text deadline])
      (hparse : Duration.parse? deadline = some s.deadline)
      (hvolume : given entries ["volume"] = [.text s.volume])
      (hthroughput : given entries ["throughput"] = [.text s.throughput]) :
      Describes entries .batch (.batch s)
  | errorRate {s : ErrorRateSlo} (shared : DescribesObjective entries s.toObjective)
      (herrors : given entries ["errors"] = [.text s.errors])
      (htotal : given entries ["total"] = [.text s.total]) :
      Describes entries .errorRate (.errorRate s)
  | latency {s : LatencySlo} (shared : DescribesObjective entries s.toObjective)
      (hclass : given entries ["request_class", "requestClass"] = [.text s.requestClass.text])
      (htotal : given entries ["total"] = [.text s.total])
      (hobservation : given entries ["observation"] = [.text s.observation]) :
      Describes entries .latency (.latency s)

lemma exists_forall₂_labelsOf_iff {vs : List Value} {l : Labels} :
    (∃ l? : Option Labels, List.Forall₂ (labelsOf · = .ok ·) vs l?.toList ∧ l?.getD ∅ = l) ↔
      GivenLabels vs l := by
  constructor
  · rintro ⟨_ | l', hvs, rfl⟩
    · exact .inl ⟨forall₂_toList_none_iff.1 hvs, rfl⟩
    · obtain ⟨v, hvs, hv⟩ := forall₂_toList_some_iff.1 hvs
      exact .inr ⟨v, hvs, labelsOf_eq_ok_iff.1 hv⟩
  · rintro (⟨rfl, rfl⟩ | ⟨v, rfl, hv⟩)
    · exact ⟨none, .nil, rfl⟩
    · exact ⟨some l, forall₂_toList_some_iff.2 ⟨v, rfl, labelsOf_eq_ok_iff.2 hv⟩, rfl⟩

lemma required_eq_ok_iff {α : Type} {field : String} {a? : Option α} {a : α} :
    required field a? = .ok a ↔ a? = some a := by
  cases a? <;> simp [required]

lemma Shared.holds_some_iff {o : Objective} :
    (∃ s, Holds entries s ∧ s.name? = some o.name ∧ s.budget? = some o.budget ∧
      s.labels?.getD ∅ = o.labels ∧ s.annotations?.getD ∅ = o.annotations) ↔
      DescribesObjective entries o := by
  rw [describesObjective_iff, ← exists_forall₂_labelsOf_iff, ← exists_forall₂_labelsOf_iff]
  constructor
  · rintro ⟨s, ⟨hname, hbudget, hlabels, hannotations⟩, hn, hb, hl, ha⟩
    rw [hn, forall₂_toList_some_iff] at hname
    rw [hb, forall₂_toList_some_iff] at hbudget
    obtain ⟨v, hgiven, hv⟩ := hname
    refine ⟨?_, ?_, ⟨_, hlabels, hl⟩, ⟨_, hannotations, ha⟩⟩
    · rwa [textOf_eq_ok_iff.1 hv] at hgiven
    · simpa only [numberOf_eq_ok_iff] using hbudget
  · rintro ⟨hname, hbudget, ⟨l?, hlabels, hl⟩, ⟨a?, hannotations, ha⟩⟩
    refine ⟨⟨some o.name, some o.budget, l?, a?⟩, ⟨?_, ?_, hlabels, hannotations⟩, rfl, rfl, hl, ha⟩
    · exact forall₂_toList_some_iff.2 ⟨_, hname, rfl⟩
    · simpa only [forall₂_toList_some_iff, numberOf_eq_ok_iff] using hbudget

lemma given_filter_notMem (h : key ∉ keys) :
    given (entries.filter (·.1 ∉ keys)) [key] = given entries [key] := by
  rw [given, given, List.filter_filter]
  refine congrArg (List.map _) (List.filter_congr fun e _ => ?_)
  simp only [List.mem_singleton]
  by_cases he : e.1 = key <;> simp [he, h]

lemma Shared.holds_filter_iff :
    Holds (entries.filter (·.1 ∉ k.ownKeys)) s ↔ Holds entries s := by
  have h : ∀ key ∈ sharedKeys, key ∉ k.ownKeys := by
    cases k <;> decide
  simp only [holds_iff, given_filter_notMem (h "name" (by decide)),
    given_filter_notMem (h "budget" (by decide)), given_filter_notMem (h "labels" (by decide)),
    given_filter_notMem (h "annotations" (by decide))]

lemma objectiveOf_eq_ok_iff (h : p.Holds k entries) {o : Objective} :
    objectiveOf p = .ok o ↔ DescribesObjective entries o := by
  rw [← Shared.holds_some_iff, objectiveOf, bind_eq_ok_iff]
  refine exists_congr fun s => ?_
  rw [Shared.foldlM_add_eq_ok_iff, ← h.others, Shared.holds_filter_iff]
  refine and_congr_right fun _ => ?_
  simp only [bind_eq_ok_iff, required_eq_ok_iff, pure, Except.pure, Except.ok.injEq]
  constructor
  · rintro ⟨n, hn, b, hb, rfl⟩
    exact ⟨hn, hb, rfl, rfl⟩
  · rintro ⟨hn, hb, hl, ha⟩
    exact ⟨o.name, hn, o.budget, hb, by rw [hl, ha]⟩

lemma given_no_keys : given entries [] = [] := by
  simp [given]

lemma hasTag_of_mem_given (htag : ∀ e ∈ entries, e.2.hasTag = false)
    (h : v ∈ given entries keys) : v.hasTag = false := by
  obtain ⟨e, he, rfl⟩ := List.mem_map.1 h
  exact htag e (List.mem_of_mem_filter he)

section

variable (htag : ∀ e ∈ entries, e.2.hasTag = false) {o : Slo}

include htag

lemma sloOf_batch_eq_ok_iff :
    sloOf .batch (asMapping entries) = .ok o ↔ Describes entries .batch o := by
  simp only [sloOf, asMapping, fieldsOf, Value.untagged, bind_eq_ok_iff, Except.ok.injEq,
    exists_eq_left', Parts.foldlM_add_eq_ok_iff htag, required_eq_ok_iff, pure, Except.pure]
  constructor
  · rintro ⟨p, hp, d, hd, volume, hvolume, throughput, hthroughput, ob, hob, rfl⟩
    have hdeadline := hp.deadline
    rw [hd, forall₂_toList_some_iff] at hdeadline
    obtain ⟨v, hgiven, hv⟩ := hdeadline
    obtain ⟨text, rfl, hparse⟩ := durationOf_eq_ok_iff.1 hv
    exact .batch ((objectiveOf_eq_ok_iff hp).1 hob) hgiven hparse
      ((hp.text_eq_ok_iff (by decide)).1 hvolume) ((hp.text_eq_ok_iff (by decide)).1 hthroughput)
  · intro h
    cases h with | @batch s deadline shared hdeadline hparse hvolume hthroughput
    have hd : List.Forall₂ (durationOf · = .ok ·) (given entries ["deadline"])
        (some s.deadline).toList :=
      forall₂_toList_some_iff.2 ⟨_, hdeadline, durationOf_eq_ok_iff.2 ⟨_, rfl, hparse⟩⟩
    have htexts : ∀ key ∈ Kind.batch.textKeys, ∃ text, given entries [key] = [.text text] := by
      simpa [Kind.textKeys] using ⟨⟨_, hvolume⟩, ⟨_, hthroughput⟩⟩
    obtain ⟨p, hp, hpd, -⟩ := Parts.exists_holds (k := .batch) hd
      (forall₂_toList_none_iff.2 given_no_keys) htexts
    exact ⟨p, hp, s.deadline, hpd, s.volume, (hp.text_eq_ok_iff (by decide)).2 hvolume,
      s.throughput, (hp.text_eq_ok_iff (by decide)).2 hthroughput, s.toObjective,
      (objectiveOf_eq_ok_iff hp).2 shared, rfl⟩

lemma sloOf_errorRate_eq_ok_iff :
    sloOf .errorRate (asMapping entries) = .ok o ↔ Describes entries .errorRate o := by
  simp only [sloOf, asMapping, fieldsOf, Value.untagged, bind_eq_ok_iff, Except.ok.injEq,
    exists_eq_left', Parts.foldlM_add_eq_ok_iff htag, pure, Except.pure]
  constructor
  · rintro ⟨p, hp, errors, herrors, total, htotal, ob, hob, rfl⟩
    exact .errorRate ((objectiveOf_eq_ok_iff hp).1 hob)
      ((hp.text_eq_ok_iff (by decide)).1 herrors) ((hp.text_eq_ok_iff (by decide)).1 htotal)
  · intro h
    cases h with | @errorRate s shared herrors htotal
    have htexts : ∀ key ∈ Kind.errorRate.textKeys, ∃ text, given entries [key] = [.text text] := by
      simpa [Kind.textKeys] using ⟨⟨_, herrors⟩, ⟨_, htotal⟩⟩
    obtain ⟨p, hp, -, -⟩ := Parts.exists_holds (k := .errorRate)
      (forall₂_toList_none_iff.2 given_no_keys) (forall₂_toList_none_iff.2 given_no_keys) htexts
    exact ⟨p, hp, s.errors, (hp.text_eq_ok_iff (by decide)).2 herrors, s.total,
      (hp.text_eq_ok_iff (by decide)).2 htotal, s.toObjective,
      (objectiveOf_eq_ok_iff hp).2 shared, rfl⟩

lemma sloOf_latency_eq_ok_iff :
    sloOf .latency (asMapping entries) = .ok o ↔ Describes entries .latency o := by
  simp only [sloOf, asMapping, fieldsOf, Value.untagged, bind_eq_ok_iff, Except.ok.injEq,
    exists_eq_left', Parts.foldlM_add_eq_ok_iff htag, required_eq_ok_iff, pure, Except.pure]
  constructor
  · rintro ⟨p, hp, c, hc, total, htotal, observation, hobservation, ob, hob, rfl⟩
    have hclass := hp.requestClass
    rw [hc, forall₂_toList_some_iff] at hclass
    obtain ⟨v, hgiven, hv⟩ := hclass
    rw [requestClassOf_eq_ok_iff (hasTag_of_mem_given htag (hgiven ▸ List.mem_singleton_self v))]
      at hv
    exact .latency ((objectiveOf_eq_ok_iff hp).1 hob) (hv ▸ hgiven)
      ((hp.text_eq_ok_iff (by decide)).1 htotal) ((hp.text_eq_ok_iff (by decide)).1 hobservation)
  · intro h
    cases h with | @latency s shared hgiven htotal hobservation
    have hclass : List.Forall₂ (requestClassOf · = .ok ·)
        (given entries ["request_class", "requestClass"]) (some s.requestClass).toList :=
      forall₂_toList_some_iff.2 ⟨_, hgiven, (requestClassOf_eq_ok_iff rfl).2 rfl⟩
    have htexts : ∀ key ∈ Kind.latency.textKeys, ∃ text, given entries [key] = [.text text] := by
      simpa [Kind.textKeys] using ⟨⟨_, htotal⟩, ⟨_, hobservation⟩⟩
    obtain ⟨p, hp, -, hpc⟩ := Parts.exists_holds (k := .latency)
      (forall₂_toList_none_iff.2 given_no_keys) hclass htexts
    exact ⟨p, hp, s.requestClass, hpc, s.total, (hp.text_eq_ok_iff (by decide)).2 htotal,
      s.observation, (hp.text_eq_ok_iff (by decide)).2 hobservation, s.toObjective,
      (objectiveOf_eq_ok_iff hp).2 shared, rfl⟩

lemma sloOf_asMapping_eq_ok_iff :
    sloOf k (asMapping entries) = .ok o ↔ Describes entries k o := by
  cases k with
  | batch => exact sloOf_batch_eq_ok_iff htag
  | errorRate => exact sloOf_errorRate_eq_ok_iff htag
  | latency => exact sloOf_latency_eq_ok_iff htag

end

lemma hasTag_asMapping :
    (asMapping entries).hasTag = false ↔ ∀ e ∈ entries, e.2.hasTag = false := by
  rw [asMapping, Value.hasTag, anyFieldTag_eq_false_iff, List.forall_mem_map]
  simp only [Value.hasTag, true_and]

lemma exists_entries_of_sloOf {body : Value} (htag : body.hasTag = false) {o : Slo}
    (h : sloOf k body = .ok o) : ∃ entries, body = asMapping entries := by
  obtain ⟨fields, hfields, h⟩ := bind_eq_ok_iff.1 h
  obtain ⟨p, hp, h⟩ := bind_eq_ok_iff.1 h
  cases body with
  | mapping fields' =>
    cases hfields
    rw [Value.hasTag, anyFieldTag_eq_false_iff] at htag
    obtain ⟨entries, rfl⟩ := Parts.exists_entries_of_foldlM htag hp
    exact ⟨entries, rfl⟩
  | null =>
    cases hfields
    cases hp
    cases k <;> cases h
  | tagged tag v => cases htag
  | _ => cases hfields

lemma sloOf_eq_ok_iff {body : Value} (htag : body.hasTag = false) {o : Slo} :
    sloOf k body = .ok o ↔ ∃ entries, body = asMapping entries ∧ Describes entries k o := by
  constructor
  · intro h
    obtain ⟨entries, rfl⟩ := exists_entries_of_sloOf htag h
    exact ⟨entries, rfl, (sloOf_asMapping_eq_ok_iff (hasTag_asMapping.1 htag)).1 h⟩
  · rintro ⟨entries, rfl, h⟩
    exact (sloOf_asMapping_eq_ok_iff (hasTag_asMapping.1 htag)).2 h

/-- Tags or not, the objective is of the kind that was asked for. -/
lemma kind_of_sloOf {body : Value} {o : Slo} (h : sloOf k body = .ok o) : o.kind = k := by
  obtain ⟨fields, -, h⟩ := bind_eq_ok_iff.1 h
  obtain ⟨p, -, h⟩ := bind_eq_ok_iff.1 h
  cases k with
  | batch =>
    simp only [bind_eq_ok_iff, pure, Except.pure, Except.ok.injEq] at h
    obtain ⟨_, -, _, -, _, -, _, -, rfl⟩ := h
    rfl
  | errorRate =>
    simp only [bind_eq_ok_iff, pure, Except.pure, Except.ok.injEq] at h
    obtain ⟨_, -, _, -, _, -, rfl⟩ := h
    rfl
  | latency =>
    simp only [bind_eq_ok_iff, pure, Except.pure, Except.ok.injEq] at h
    obtain ⟨_, -, _, -, _, -, _, -, rfl⟩ := h
    rfl

/-! ### What is of no account -/

variable {entries' : List (String × Value)} {o : Slo}

/-- The keys of each field, those of one that goes by two names together. -/
def fieldKeys (k : Kind) : List (List String) :=
  k.deadlineKeys :: k.requestClassKeys :: (k.textKeys ++ sharedKeys).map ([·])

/-- The entries give the same values to every field of the kind, up to their order. -/
def Alike (k : Kind) (entries entries' : List (String × Value)) : Prop :=
  ∀ keys ∈ fieldKeys k, (given entries keys).Perm (given entries' keys)

lemma Alike.symm (h : Alike k entries entries') : Alike k entries' entries :=
  fun keys hkeys => (h keys hkeys).symm

lemma Alike.given_eq (h : Alike k entries entries') (hkeys : keys ∈ fieldKeys k)
    (hv : given entries keys = [v]) : given entries' keys = [v] :=
  List.perm_singleton.1 (hv ▸ (h keys hkeys).symm)

lemma singleton_mem_fieldKeys (h : key ∈ k.textKeys ++ sharedKeys) : [key] ∈ fieldKeys k :=
  List.mem_cons_of_mem _ (List.mem_cons_of_mem _ (List.mem_map_of_mem h))

lemma Alike.given_text (h : Alike k entries entries') (hkey : key ∈ k.textKeys)
    (hv : given entries [key] = [v]) : given entries' [key] = [v] :=
  h.given_eq (singleton_mem_fieldKeys (List.mem_append_left _ hkey)) hv

lemma GivenLabels.of_perm {l : Labels} {vs vs' : List Value} (h : vs.Perm vs')
    (hl : GivenLabels vs l) : GivenLabels vs' l := by
  obtain ⟨rfl, rfl⟩ | ⟨v, rfl, hv⟩ := hl
  · exact .inl ⟨List.nil_perm.1 h, rfl⟩
  · exact .inr ⟨v, List.perm_singleton.1 h.symm, hv⟩

lemma DescribesObjective.of_alike {o : Objective} (h : Alike k entries entries')
    (ho : DescribesObjective entries o) : DescribesObjective entries' o := by
  have hshared : ∀ key ∈ sharedKeys, [key] ∈ fieldKeys k := fun key hkey =>
    singleton_mem_fieldKeys (List.mem_append_right _ hkey)
  obtain ⟨v, hbudget, hv⟩ := ho.budget
  exact ⟨h.given_eq (hshared _ (by decide)) ho.name,
    ⟨v, h.given_eq (hshared _ (by decide)) hbudget, hv⟩,
    ho.labels.of_perm (h _ (hshared _ (by decide))),
    ho.annotations.of_perm (h _ (hshared _ (by decide)))⟩

lemma Describes.of_alike (h : Alike k entries entries') (ho : Describes entries k o) :
    Describes entries' k o := by
  cases ho with
  | batch shared hdeadline hparse hvolume hthroughput =>
    exact .batch (shared.of_alike h) (h.given_eq (by decide) hdeadline) hparse
      (h.given_text (by decide) hvolume) (h.given_text (by decide) hthroughput)
  | errorRate shared herrors htotal =>
    exact .errorRate (shared.of_alike h) (h.given_text (by decide) herrors)
      (h.given_text (by decide) htotal)
  | latency shared hclass htotal hobservation =>
    exact .latency (shared.of_alike h) (h.given_eq (by decide) hclass)
      (h.given_text (by decide) htotal) (h.given_text (by decide) hobservation)

lemma Alike.sloOf_iff (h : Alike k entries entries') (htag : ∀ e ∈ entries, e.2.hasTag = false)
    (htag' : ∀ e ∈ entries', e.2.hasTag = false) :
    sloOf k (asMapping entries') = .ok o ↔ sloOf k (asMapping entries) = .ok o := by
  rw [sloOf_asMapping_eq_ok_iff htag, sloOf_asMapping_eq_ok_iff htag']
  exact ⟨.of_alike h.symm, .of_alike h⟩

lemma given_append (entries entries' : List (String × Value)) (keys : List String) :
    given (entries ++ entries') keys = given entries keys ++ given entries' keys := by
  simp [given]

lemma given_cons (e : String × Value) (entries : List (String × Value)) (keys : List String) :
    given (e :: entries) keys =
      if e.1 ∈ keys then e.2 :: given entries keys else given entries keys := by
  by_cases h : e.1 ∈ keys <;> simp [given, h]

lemma alike_of_perm (h : entries.Perm entries') : Alike k entries entries' :=
  fun _ _ => (h.filter _).map _

lemma alike_respelled (before after : List (String × Value)) (v : Value) :
    Alike k (before ++ ("request_class", v) :: after) (before ++ ("requestClass", v) :: after) := by
  have hkeys : ∀ keys ∈ fieldKeys k, "request_class" ∈ keys ↔ "requestClass" ∈ keys := by
    cases k <;> decide
  intro keys hmem
  simp only [given_append, given_cons, hkeys keys hmem]
  exact .refl _

lemma alike_unknown (before after : List (String × Value)) (v : Value)
    (hkey : key ∉ k.ownKeys ++ sharedKeys) :
    Alike k (before ++ (key, v) :: after) (before ++ after) := by
  have hkeys : ∀ keys ∈ fieldKeys k, keys ⊆ k.ownKeys ++ sharedKeys := by
    cases k <;> decide
  intro keys hmem
  rw [given_append, given_append, given_cons, if_neg fun h => hkey (hkeys keys hmem h)]

/-! ### The shape of a body -/

/-- One value stands under the keys, and it has a property. -/
def Once (entries : List (String × Value)) (keys : List String) (P : Value → Prop) : Prop :=
  ∃ v, given entries keys = [v] ∧ P v

def IsText (v : Value) : Prop := ∃ text, v = .text text

/-- A number of either kind. -/
def IsNumeric (v : Value) : Prop := (∃ n, v = .int n) ∨ ∃ x, v = .float x

def IsDuration (v : Value) : Prop := ∃ text d, v = .text text ∧ Duration.parse? text = some d

def IsRequestClass (v : Value) : Prop := ∃ c : RequestClass, v = .text c.text

/-- A mapping from texts to texts. -/
def IsTextMap (v : Value) : Prop :=
  ∃ pairs : List (String × String), v = asMapping (pairs.map fun e => (e.1, .text e.2))

/-- The fields that every body has. -/
structure SharedShape (entries : List (String × Value)) : Prop where
  name : Once entries ["name"] IsText
  budget : Once entries ["budget"] IsNumeric
  labels : given entries ["labels"] = [] ∨ Once entries ["labels"] IsTextMap
  annotations : given entries ["annotations"] = [] ∨ Once entries ["annotations"] IsTextMap

/-- The fields that the bodies of a kind have. -/
def OwnShape (entries : List (String × Value)) : Kind → Prop
  | .batch => Once entries ["deadline"] IsDuration ∧ Once entries ["volume"] IsText ∧
      Once entries ["throughput"] IsText
  | .errorRate => Once entries ["errors"] IsText ∧ Once entries ["total"] IsText
  | .latency => Once entries ["request_class", "requestClass"] IsRequestClass ∧
      Once entries ["total"] IsText ∧ Once entries ["observation"] IsText

/-- A mapping whose keys are texts, with the fields of a kind among them. -/
def HasShape (k : Kind) (body : Value) : Prop :=
  ∃ entries, body = asMapping entries ∧ SharedShape entries ∧ OwnShape entries k

lemma givenLabels_iff {vs : List Value} :
    (∃ l, GivenLabels vs l) ↔ vs = [] ∨ ∃ v, vs = [v] ∧ IsTextMap v := by
  constructor
  · rintro ⟨l, ⟨hvs, -⟩ | ⟨v, hvs, pairs, hv, -⟩⟩
    · exact .inl hvs
    · exact .inr ⟨v, hvs, pairs, hv⟩
  · rintro (hvs | ⟨v, hvs, pairs, hv⟩)
    · exact ⟨∅, .inl ⟨hvs, rfl⟩⟩
    · exact ⟨.ofList pairs, .inr ⟨v, hvs, pairs, hv, Labels.get?_ofList pairs⟩⟩

lemma isNumeric_iff : IsNumeric v ↔ ∃ x, IsNumber v x := by
  constructor
  · rintro (⟨n, rfl⟩ | ⟨x, rfl⟩)
    · exact ⟨_, numberOf_eq_ok_iff.1 rfl⟩
    · exact ⟨x, .float x⟩
  · rintro ⟨x, h⟩
    cases h with
    | nonneg n => exact .inl ⟨_, rfl⟩
    | neg n h => exact .inl ⟨_, rfl⟩
    | float x => exact .inr ⟨x, rfl⟩

lemma sharedShape_iff : SharedShape entries ↔ ∃ o, DescribesObjective entries o := by
  constructor
  · rintro ⟨⟨_, hname, name, rfl⟩, ⟨v, hbudget, hv⟩, hlabels, hannotations⟩
    obtain ⟨budget, hv⟩ := isNumeric_iff.1 hv
    obtain ⟨labels, hlabels⟩ := givenLabels_iff.2 hlabels
    obtain ⟨annotations, hannotations⟩ := givenLabels_iff.2 hannotations
    exact ⟨⟨name, budget, labels, annotations⟩, hname, ⟨v, hbudget, hv⟩, hlabels, hannotations⟩
  · rintro ⟨o, hname, ⟨v, hbudget, hv⟩, hlabels, hannotations⟩
    exact ⟨⟨_, hname, _, rfl⟩, ⟨v, hbudget, isNumeric_iff.2 ⟨_, hv⟩⟩,
      givenLabels_iff.1 ⟨_, hlabels⟩, givenLabels_iff.1 ⟨_, hannotations⟩⟩

lemma exists_describes_iff :
    (∃ o, Describes entries k o) ↔ SharedShape entries ∧ OwnShape entries k := by
  rw [sharedShape_iff]
  constructor
  · rintro ⟨o, h⟩
    cases h with
    | batch shared hdeadline hparse hvolume hthroughput =>
      exact ⟨⟨_, shared⟩, ⟨_, hdeadline, _, _, rfl, hparse⟩, ⟨_, hvolume, _, rfl⟩,
        ⟨_, hthroughput, _, rfl⟩⟩
    | errorRate shared herrors htotal =>
      exact ⟨⟨_, shared⟩, ⟨_, herrors, _, rfl⟩, ⟨_, htotal, _, rfl⟩⟩
    | latency shared hclass htotal hobservation =>
      exact ⟨⟨_, shared⟩, ⟨_, hclass, _, rfl⟩, ⟨_, htotal, _, rfl⟩, ⟨_, hobservation, _, rfl⟩⟩
  · rintro ⟨⟨o, shared⟩, hown⟩
    cases k with
    | batch =>
      obtain ⟨⟨_, hdeadline, deadline, d, rfl, hparse⟩, ⟨_, hvolume, volume, rfl⟩,
        ⟨_, hthroughput, throughput, rfl⟩⟩ := hown
      exact ⟨_, .batch (s := ⟨o, d, volume, throughput⟩) shared hdeadline hparse hvolume
        hthroughput⟩
    | errorRate =>
      obtain ⟨⟨_, herrors, errors, rfl⟩, ⟨_, htotal, total, rfl⟩⟩ := hown
      exact ⟨_, .errorRate (s := ⟨o, errors, total⟩) shared herrors htotal⟩
    | latency =>
      obtain ⟨⟨_, hclass, c, rfl⟩, ⟨_, htotal, total, rfl⟩, ⟨_, hobservation, observation, rfl⟩⟩ :=
        hown
      exact ⟨_, .latency (s := ⟨o, c, total, observation⟩) shared hclass htotal hobservation⟩

/-- **Bodies are read by their shape.** A body is accepted exactly if it has the shape of the kind,
and says then what the objective is, in whatever order, spelling and company. -/
theorem bodies_read_by_shape (k : Kind) (body : Value) (htag : body.hasTag = false) :
    ((∃ s, sloOf k body = .ok s) ↔ HasShape k body) ∧
    (∀ s, sloOf k body = .ok s ↔ ∃ entries, body = asMapping entries ∧ Describes entries k s) ∧
    ∀ entries, body = asMapping entries →
      -- in another order
      (∀ entries', entries.Perm entries' →
        ∀ s, sloOf k (asMapping entries') = .ok s ↔ sloOf k body = .ok s) ∧
      -- with the other name of the request class
      (∀ before v after, entries = before ++ ("request_class", v) :: after →
        ∀ s, sloOf k (asMapping (before ++ ("requestClass", v) :: after)) = .ok s ↔
          sloOf k body = .ok s) ∧
      -- without a key that is not one of the kind
      ∀ before key v after, entries = before ++ (key, v) :: after →
        key ∉ k.ownKeys ++ sharedKeys →
        ∀ s, sloOf k (asMapping (before ++ after)) = .ok s ↔ sloOf k body = .ok s := by
  refine ⟨?_, fun s => sloOf_eq_ok_iff htag, ?_⟩
  · simp only [sloOf_eq_ok_iff htag, HasShape, ← exists_describes_iff]
    exact ⟨fun ⟨s, entries, hbody, h⟩ => ⟨entries, hbody, s, h⟩,
      fun ⟨entries, hbody, s, h⟩ => ⟨s, entries, hbody, h⟩⟩
  · rintro entries rfl
    rw [hasTag_asMapping] at htag
    refine ⟨fun entries' h s => ?_, ?_, ?_⟩
    · exact (alike_of_perm h).sloOf_iff htag fun e he => htag e (h.mem_iff.2 he)
    · rintro before v after rfl s
      refine (alike_respelled before after v).sloOf_iff htag ?_
      simpa [or_imp, forall_and] using htag
    · rintro before key v after rfl hkey s
      refine (alike_unknown before after v hkey).sloOf_iff htag fun e he => htag e ?_
      rcases List.mem_append.1 he with he | he
      · exact List.mem_append_left _ he
      · exact List.mem_append_right _ (List.mem_cons_of_mem _ he)

/-- The fields of a request latency, in an unusual order and with one that is not of the kind. -/
def requestLatencyEntries : List (String × Value) :=
  [("observation", .text "rate(b)"), ("owner", .sequence [.null]), ("requestClass", .text "fast+"),
    ("labels", asMapping [("team", .text "api")]), ("budget", .int 0), ("total", .text "rate(t)"),
    ("name", .text "api")]

theorem requestLatency_read_by_shape :
    (asMapping requestLatencyEntries).hasTag = false ∧
      ∃ s, sloOf .latency (asMapping requestLatencyEntries) = .ok s := by
  refine ⟨rfl, (bodies_read_by_shape .latency _ rfl).1.2 ⟨_, rfl, ⟨?_, ?_, ?_, ?_⟩, ?_, ?_, ?_⟩⟩
  · exact ⟨_, rfl, _, rfl⟩
  · exact ⟨_, rfl, .inl ⟨_, rfl⟩⟩
  · exact .inr ⟨_, rfl, [("team", "api")], rfl⟩
  · exact .inl rfl
  · exact ⟨_, rfl, .fastPlus, rfl⟩
  · exact ⟨_, rfl, _, rfl⟩
  · exact ⟨_, rfl, _, rfl⟩

end BurnRate.Definition
