import BurnRate.Definition.Load
import BurnRate.Proofs.BodyShape

/-!
Definitions are read one after the other, across documents and files.

The first entry that fails decides the answer, and an entry fails or not by itself. So files in a
row are as good as one document with the entries of all of them, but for the index in errors.
-/

namespace BurnRate

/-- The error as it is told where so many more entries come first. -/
def DefinitionError.shift (n : ℕ) : DefinitionError → DefinitionError
  | unknownTemplate template index => unknownTemplate template (n + index)
  | body template index message => body template (n + index) message
  | e => e

namespace Definition

variable {r : Registry} {index : ℕ} {e : Entry} {es : List Entry} {s : Slo} {ss : List Slo}
  {err : DefinitionError}

/-! ### One entry -/

/-- The entry names a template that is known, its body has the shape of the template, and the
objective passes its checks. -/
def Entry.Defines (r : Registry) (e : Entry) (s : Slo) : Prop :=
  ∃ k ∈ r.kinds, k.name = e.template ∧ sloOf k e.body = .ok s ∧ s.validate = .ok ()

/-- What is wrong with an entry that has a given index. -/
inductive Entry.Fails (r : Registry) (index : ℕ) (e : Entry) : DefinitionError → Prop where
  | unknown (h : ∀ k ∈ r.kinds, k.name ≠ e.template) :
      Fails r index e (.unknownTemplate e.template index)
  | body {k : Kind} {m : Mismatch} (hk : k ∈ r.kinds) (hname : k.name = e.template)
      (h : sloOf k e.body = .error m) : Fails r index e (.body e.template index m.text)
  | invalid {k : Kind} {s : Slo} {fault : Slo.Fault} (hk : k ∈ r.kinds)
      (hname : k.name = e.template) (hs : sloOf k e.body = .ok s) (h : s.validate = .error fault) :
      Fails r index e (.invalid s.name fault.text)

lemma lookup?_eq_some_iff {name : String} {k : Kind} :
    r.lookup? name = some k ↔ k ∈ r.kinds ∧ k.name = name := by
  rw [Registry.lookup?]
  constructor
  · intro h
    exact ⟨List.mem_of_find?_eq_some h, by simpa using List.find?_some h⟩
  · rintro ⟨hk, rfl⟩
    cases h : r.kinds.find? (·.name == k.name) with
    | none => simpa using List.find?_eq_none.1 h k hk
    | some l =>
      have hl : l.name = k.name := by simpa using List.find?_some h
      rw [Kind.name_injective hl]

lemma lookup?_eq_none_iff {name : String} :
    r.lookup? name = none ↔ ∀ k ∈ r.kinds, k.name ≠ name := by
  simp [Registry.lookup?, List.find?_eq_none]

lemma Entry.Defines.instantiate_eq (h : e.Defines r s) : instantiate r index e = .ok s := by
  obtain ⟨k, hk, hname, hs, hvalid⟩ := h
  simp only [instantiate, lookup?_eq_some_iff.2 ⟨hk, hname⟩, hs, hvalid]

lemma Entry.Fails.instantiate_eq (h : e.Fails r index err) :
    instantiate r index e = .error err := by
  cases h with
  | unknown h => simp only [instantiate, lookup?_eq_none_iff.2 h]
  | body hk hname h => simp only [instantiate, lookup?_eq_some_iff.2 ⟨hk, hname⟩, h]
  | invalid hk hname hs h => simp only [instantiate, lookup?_eq_some_iff.2 ⟨hk, hname⟩, hs, h]

lemma defines_or_fails (r : Registry) (index : ℕ) (e : Entry) :
    (∃ s, e.Defines r s) ∨ ∃ err, e.Fails r index err := by
  cases hk : r.lookup? e.template with
  | none => exact .inr ⟨_, .unknown (lookup?_eq_none_iff.1 hk)⟩
  | some k =>
    obtain ⟨hmem, hname⟩ := lookup?_eq_some_iff.1 hk
    cases hs : sloOf k e.body with
    | error m => exact .inr ⟨_, .body hmem hname hs⟩
    | ok s =>
      cases hvalid : s.validate with
      | error fault => exact .inr ⟨_, .invalid hmem hname hs hvalid⟩
      | ok u => exact .inl ⟨s, k, hmem, hname, hs, hvalid⟩

lemma instantiate_ok_iff : instantiate r index e = .ok s ↔ e.Defines r s := by
  refine ⟨fun h => ?_, Entry.Defines.instantiate_eq⟩
  rcases defines_or_fails r index e with ⟨s', hs⟩ | ⟨err, hf⟩
  · rw [hs.instantiate_eq] at h
    cases h
    exact hs
  · rw [hf.instantiate_eq] at h
    cases h

lemma instantiate_error_iff : instantiate r index e = .error err ↔ e.Fails r index err := by
  refine ⟨fun h => ?_, Entry.Fails.instantiate_eq⟩
  rcases defines_or_fails r index e with ⟨s, hs⟩ | ⟨err', hf⟩
  · rw [hs.instantiate_eq] at h
    cases h
  · rw [hf.instantiate_eq] at h
    cases h
    exact hf

lemma Entry.Defines.kind_name (h : e.Defines r s) : s.kind.name = e.template := by
  obtain ⟨k, -, hname, hs, -⟩ := h
  rw [kind_of_sloOf hs, hname]

lemma Entry.Defines.validate (h : e.Defines r s) : s.validate = .ok () := by
  obtain ⟨k, -, -, -, hvalid⟩ := h
  exact hvalid

lemma Entry.Fails.shift (n : ℕ) (h : e.Fails r index err) :
    e.Fails r (n + index) (err.shift n) := by
  cases h with
  | unknown h => exact .unknown h
  | body hk hname h => exact .body hk hname h
  | invalid hk hname hs h => exact .invalid hk hname hs h

/-! ### Entries in a row -/

/-- The first of some entries that fails, with its place among them. -/
def FirstFails (r : Registry) (es : List Entry) (err : DefinitionError) : Prop :=
  ∃ before e after, es = before ++ e :: after ∧ (∀ x ∈ before, ∃ s, x.Defines r s) ∧
    e.Fails r before.length err

lemma instantiateFrom_ok_iff :
    instantiateFrom r index es = .ok ss ↔ List.Forall₂ (Entry.Defines r) es ss := by
  induction es generalizing index ss with
  | nil => simp [instantiateFrom, eq_comm]
  | cons e es ih =>
    simp only [instantiateFrom, bind_eq_ok_iff, instantiate_ok_iff, ih, List.forall₂_cons_left_iff,
      pure, Except.pure, Except.ok.injEq]
    constructor
    · rintro ⟨s, hs, ss', hss, rfl⟩
      exact ⟨s, ss', hs, hss, rfl⟩
    · rintro ⟨s, ss', hs, hss, rfl⟩
      exact ⟨s, hs, ss', hss, rfl⟩

lemma instantiateFrom_error_iff :
    instantiateFrom r index es = .error err ↔
      ∃ before e after, es = before ++ e :: after ∧ (∀ x ∈ before, ∃ s, x.Defines r s) ∧
        e.Fails r (index + before.length) err := by
  induction es generalizing index with
  | nil => simp [instantiateFrom]
  | cons e es ih =>
    rw [instantiateFrom, bind_eq_error_iff, instantiate_error_iff]
    constructor
    · rintro (hf | ⟨s, hs, h⟩)
      · exact ⟨[], e, es, rfl, by simp, hf⟩
      · obtain h | ⟨_, -, h⟩ := bind_eq_error_iff.1 h
        · obtain ⟨before, x, after, rfl, hbefore, hx⟩ := ih.1 h
          refine ⟨e :: before, x, after, rfl, ?_, ?_⟩
          · exact List.forall_mem_cons.2 ⟨⟨s, instantiate_ok_iff.1 hs⟩, hbefore⟩
          · rwa [List.length_cons, Nat.add_comm before.length, ← Nat.add_assoc]
        · cases h
    · rintro ⟨_ | ⟨y, before⟩, x, after, heq, hbefore, hx⟩
      · obtain ⟨rfl, rfl⟩ := List.cons.inj heq
        exact .inl hx
      · obtain ⟨rfl, rfl⟩ := List.cons.inj heq
        obtain ⟨⟨s, hs⟩, hbefore⟩ := List.forall_mem_cons.1 hbefore
        refine .inr ⟨s, hs.instantiate_eq, bind_eq_error_iff.2 (.inl (ih.2 ?_))⟩
        refine ⟨before, x, after, rfl, hbefore, ?_⟩
        rwa [List.length_cons, Nat.add_comm before.length, ← Nat.add_assoc] at hx

lemma FirstFails.append {before : List Entry} (h : FirstFails r es err)
    (hbefore : ∀ x ∈ before, ∃ s, x.Defines r s) (after : List Entry) :
    FirstFails r (before ++ (es ++ after)) (err.shift before.length) := by
  obtain ⟨front, e, back, rfl, hfront, he⟩ := h
  refine ⟨before ++ front, e, back ++ after, by simp, ?_, ?_⟩
  · exact List.forall_mem_append.2 ⟨hbefore, hfront⟩
  · rw [List.length_append]
    exact he.shift before.length

/-! ### Documents and files -/

lemma parseDefinitions_of_some {document : String} (h : Entry.allOfText? document = some es) :
    parseDefinitions r document = instantiateFrom r 0 es := by
  simp only [parseDefinitions, h]

lemma parseDefinitions_ok_iff {document : String} (h : Entry.allOfText? document = some es) :
    parseDefinitions r document = .ok ss ↔ List.Forall₂ (Entry.Defines r) es ss := by
  rw [parseDefinitions_of_some h, instantiateFrom_ok_iff]

lemma parseDefinitions_error_iff {document : String} (h : Entry.allOfText? document = some es) :
    parseDefinitions r document = .error err ↔ FirstFails r es err := by
  simp only [parseDefinitions_of_some h, instantiateFrom_error_iff, FirstFails, Nat.zero_add]

/-- Whatever definitions are read from a document has passed its checks. -/
theorem validate_of_parseDefinitions {document : String}
    (h : parseDefinitions r document = .ok ss) : ∀ s ∈ ss, s.validate = .ok () := by
  intro s hs
  cases hes : Entry.allOfText? document with
  | none =>
    rw [parseDefinitions, hes] at h
    cases h
  | some es =>
    obtain ⟨e, -, he⟩ := exists_of_mem_forall₂ ((parseDefinitions_ok_iff hes).1 h) hs
    exact he.validate

/-- No entry fails with the error of a document that lists none. -/
lemma parseDefinitions_document_iff {document : String} :
    (∃ message, parseDefinitions r document = .error (.document message)) ↔
      Entry.allOfText? document = none := by
  constructor
  · rintro ⟨message, h⟩
    cases hes : Entry.allOfText? document with
    | none => rfl
    | some es =>
      obtain ⟨_, _, _, -, -, hf⟩ := (parseDefinitions_error_iff hes).1 h
      cases hf
  · intro h
    simp [parseDefinitions, h]

/-- The file at the path can be read and lists the entries. -/
def Lists (readText : String → Except FileError String) (path : String) (es : List Entry) : Prop :=
  ∃ document, readText path = .ok document ∧ Entry.allOfText? document = some es

section

variable {readText : String → Except FileError String} {paths : List String}
  {ess : List (List Entry)}

lemma loadDefinitions_cons {path : String} (h : Lists readText path es) :
    loadDefinitions r readText (path :: paths) = do
      let slos ← instantiateFrom r 0 es
      return slos ++ (← loadDefinitions r readText paths) := by
  obtain ⟨document, hread, hes⟩ := h
  rw [loadDefinitions, hread, ← parseDefinitions_of_some hes]
  rfl

lemma loadDefinitions_ok_iff (h : List.Forall₂ (Lists readText) paths ess) :
    loadDefinitions r readText paths = .ok ss ↔
      List.Forall₂ (Entry.Defines r) ess.flatten ss := by
  induction h generalizing ss with
  | nil => simp [loadDefinitions, eq_comm]
  | @cons path es paths ess hes _ ih =>
    rw [loadDefinitions_cons hes, List.flatten_cons, forall₂_append_left_iff]
    simp only [bind_eq_ok_iff, instantiateFrom_ok_iff, ih, pure, Except.pure, Except.ok.injEq]
    constructor
    · rintro ⟨us, hus, vs, hvs, rfl⟩
      exact ⟨us, vs, hus, hvs, rfl⟩
    · rintro ⟨us, vs, hus, hvs, rfl⟩
      exact ⟨us, hus, vs, hvs, rfl⟩

/-- Files fail with the error of the first one that has an entry that fails. -/
lemma loadDefinitions_error_iff (h : List.Forall₂ (Lists readText) paths ess) :
    loadDefinitions r readText paths = .error err ↔
      ∃ before es after, ess = before ++ es :: after ∧
        (∀ e ∈ before.flatten, ∃ s, e.Defines r s) ∧ FirstFails r es err := by
  induction h with
  | nil => simp [loadDefinitions]
  | @cons path es paths ess hes _ ih =>
    have hfirst : instantiateFrom r 0 es = .error err ↔ FirstFails r es err := by
      simp only [instantiateFrom_error_iff, FirstFails, Nat.zero_add]
    rw [loadDefinitions_cons hes, bind_eq_error_iff, hfirst]
    constructor
    · rintro (hf | ⟨ss, hss, herr⟩)
      · exact ⟨[], es, ess, rfl, by simp, hf⟩
      · obtain herr | ⟨_, -, herr⟩ := bind_eq_error_iff.1 herr
        · obtain ⟨before, fs, after, rfl, hbefore, hfs⟩ := ih.1 herr
          refine ⟨es :: before, fs, after, rfl, List.forall_mem_append.2 ⟨fun e he => ?_, hbefore⟩,
            hfs⟩
          obtain ⟨s, -, hs⟩ := exists_of_mem_forall₂ (instantiateFrom_ok_iff.1 hss).flip he
          exact ⟨s, hs⟩
        · cases herr
    · rintro ⟨_ | ⟨fs, before⟩, gs, after, heq, hbefore, hf⟩
      · obtain ⟨rfl, rfl⟩ := List.cons.inj heq
        exact .inl hf
      · obtain ⟨rfl, rfl⟩ := List.cons.inj heq
        obtain ⟨hes, hbefore⟩ := List.forall_mem_append.1 hbefore
        obtain ⟨ss, hss⟩ := exists_forall₂_iff.2 hes
        refine .inr ⟨ss, instantiateFrom_ok_iff.2 hss, bind_eq_error_iff.2 (.inl (ih.2 ?_))⟩
        exact ⟨before, gs, after, rfl, hbefore, hf⟩

end

/-- **Definitions are read in sequence.** The first entry that fails decides the answer, wherever
the entries are split into files. -/
theorem definitions_read_in_sequence (r : Registry) :
    -- a text that lists no entries is refused as such, and no other text is
    (∀ document, (∃ message, parseDefinitions r document = .error (.document message)) ↔
      Entry.allOfText? document = none) ∧
    -- of the entries that a text lists, the first one that fails is the answer, or else all define
    (∀ document es, Entry.allOfText? document = some es →
      (∀ err, parseDefinitions r document = .error err ↔ FirstFails r es err) ∧
      (∀ ss, parseDefinitions r document = .ok ss ↔ List.Forall₂ (Entry.Defines r) es ss) ∧
      ∀ ss, parseDefinitions r document = .ok ss →
        List.Forall₂ (fun e s => s.kind.name = e.template ∧ s.validate = .ok ()) es ss) ∧
    -- files answer as one text that lists their entries, with the index of an entry in its file
    ∀ readText paths ess document, List.Forall₂ (Lists readText) paths ess →
      Entry.allOfText? document = some ess.flatten →
      (∀ ss, loadDefinitions r readText paths = .ok ss ↔ parseDefinitions r document = .ok ss) ∧
      ∀ err, loadDefinitions r readText paths = .error err ↔
        ∃ before es after, ess = before ++ es :: after ∧
          (∀ e ∈ before.flatten, ∃ s, e.Defines r s) ∧ FirstFails r es err ∧
          parseDefinitions r document = .error (err.shift before.flatten.length) := by
  refine ⟨fun _ => parseDefinitions_document_iff, fun document es hes => ⟨fun _ =>
    parseDefinitions_error_iff hes, fun _ => parseDefinitions_ok_iff hes, fun ss hss => ?_⟩,
    fun readText paths ess document hfiles hdoc => ⟨fun ss => ?_, fun err => ?_⟩⟩
  · refine ((parseDefinitions_ok_iff hes).1 hss).imp fun e s hs => ?_
    exact ⟨hs.kind_name, hs.validate⟩
  · rw [loadDefinitions_ok_iff hfiles, parseDefinitions_ok_iff hdoc]
  · rw [loadDefinitions_error_iff hfiles]
    constructor
    · rintro ⟨before, es, after, rfl, hbefore, hf⟩
      refine ⟨before, es, after, rfl, hbefore, hf, (parseDefinitions_error_iff hdoc).2 ?_⟩
      rw [List.flatten_append, List.flatten_cons]
      exact hf.append hbefore after.flatten
    · rintro ⟨before, es, after, heq, hbefore, hf, -⟩
      exact ⟨before, es, after, heq, hbefore, hf⟩

/-- A document with some definitions. -/
def documentOf (definitions : List String) : String :=
  "definitions: [" ++ ", ".intercalate definitions ++ "]"

/-- Half of the requests may fail. -/
def api : ErrorRateSlo where
  name := "api"
  budget := 0.5
  errors := "rate(e[\x7b\x7b window \x7d\x7d])"
  total := "rate(t[\x7b\x7b window \x7d\x7d])"

def apiText : String :=
  "\x7btemplate: ErrorRateSLO, definition: \x7bname: api, budget: 0.5, "
    ++ "errors: 'rate(e[\x7b\x7b window \x7d\x7d])', total: 'rate(t[\x7b\x7b window \x7d\x7d])'\x7d\x7d"

def apiEntry : Entry where
  template := "ErrorRateSLO"
  body := asMapping [("name", .text "api"), ("budget", .float 0.5), ("errors", .text api.errors),
    ("total", .text api.total)]

lemma allOfText?_api : Entry.allOfText? (documentOf [apiText]) = some [apiEntry] := by
  decide +kernel

lemma api_defined : apiEntry.Defines .default (.errorRate api) := by
  refine ⟨.errorRate, by decide, rfl, eq_ok_of_toOption ?_, eq_ok_of_toOption ?_⟩
  · decide +kernel
  · decide +kernel

/-- A definition of a template that no kind has. -/
def strayText : String := "\x7btemplate: A, definition: ~\x7d"

def strayEntry : Entry := ⟨"A", .null⟩

/-- A file with one definition, then one that goes astray. -/
def strayFiles (path : String) : Except FileError String :=
  .ok (documentOf (if path = "api.yaml" then [apiText] else [strayText]))

/-- The error has the place of the definition in its file, and in a document with the definitions of
both files the place among all. -/
theorem strayFiles_read_in_sequence :
    loadDefinitions .default strayFiles ["api.yaml", "stray.yaml"] =
        .error (.unknownTemplate "A" 0) ∧
      parseDefinitions .default (documentOf [apiText, strayText]) =
        .error (.unknownTemplate "A" 1) := by
  have hstray : Entry.allOfText? (documentOf [strayText]) = some [strayEntry] := by
    decide +kernel
  have hboth : Entry.allOfText? (documentOf [apiText, strayText]) =
      some [apiEntry, strayEntry] := by
    decide +kernel
  have hfiles : List.Forall₂ (Lists strayFiles) ["api.yaml", "stray.yaml"]
      [[apiEntry], [strayEntry]] :=
    .cons ⟨_, rfl, allOfText?_api⟩ (.cons ⟨_, rfl, hstray⟩ .nil)
  have hbefore : ∀ e ∈ [apiEntry], ∃ s, e.Defines .default s := by
    intro e he
    rw [List.mem_singleton.1 he]
    exact ⟨_, api_defined⟩
  have hfails (index : ℕ) : strayEntry.Fails .default index (.unknownTemplate "A" index) :=
    .unknown (by decide)
  have hfirst : FirstFails .default [strayEntry] (.unknownTemplate "A" 0) :=
    ⟨[], strayEntry, [], rfl, by simp, hfails 0⟩
  obtain ⟨-, hdocument, hload⟩ := definitions_read_in_sequence .default
  have hparse : parseDefinitions .default (documentOf [apiText, strayText]) =
      .error (.unknownTemplate "A" 1) :=
    ((hdocument _ _ hboth).1 _).2 ⟨[apiEntry], strayEntry, [], rfl, hbefore, hfails 1⟩
  refine ⟨((hload strayFiles _ _ _ hfiles hboth).2 _).2 ?_, hparse⟩
  exact ⟨[[apiEntry]], _, [], rfl, hbefore, hfirst, hparse⟩

end Definition

end BurnRate
