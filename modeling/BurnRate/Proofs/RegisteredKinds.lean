import BurnRate.Pipeline
import BurnRate.Proofs.DefinitionSequence
import BurnRate.Proofs.SortedNames
import Mathlib.Data.Finset.Card

/-!
Registries as they come from registrations, in any order and with repetitions.

A table in which the last registration of a name takes the place of the former one holds each kind
once, where it was registered first. So the order of registrations decides the order of the ratio
rules and nothing else.
-/

namespace BurnRate

/-- What is known of a kind: its name, how bodies of its definitions are read, its ratio rules. -/
structure Template where
  name : String
  read : Yaml.Value → Except Definition.Mismatch Slo
  ratioRules : List Rule

def Kind.template (k : Kind) : Template := ⟨k.name, Definition.sloOf k, k.ratioRules⟩

namespace Template

/-- Puts a template into a table, in the place of one of its name or else at the end. -/
def put (t : Template) : List Template → List Template
  | [] => [t]
  | u :: us => if u.name = t.name then t :: us else u :: put t us

/-- The table after kinds were registered one after the other. -/
def table (ks : List Kind) : List Template := ks.foldl (fun ts k => k.template.put ts) []

/-- To replace the template of a kind by itself changes nothing, and a new one comes last. -/
lemma put_map_template (k : Kind) (ks : List Kind) :
    k.template.put (ks.map Kind.template) =
      if k ∈ ks then ks.map Kind.template else ks.map Kind.template ++ [k.template] := by
  induction ks with
  | nil => rfl
  | cons l ks ih =>
    have hname : l.template.name = k.template.name ↔ k = l :=
      ⟨fun h => (Kind.name_injective h).symm, fun h => h ▸ rfl⟩
    rw [List.map_cons, put, ih]
    by_cases hkl : k = l
    · rw [if_pos (hname.2 hkl), if_pos (hkl ▸ List.mem_cons_self), hkl]
    · rw [if_neg (mt hname.1 hkl)]
      by_cases hks : k ∈ ks
      · rw [if_pos hks, if_pos (List.mem_cons_of_mem l hks)]
      · rw [if_neg hks, if_neg (by simp [hkl, hks]), List.cons_append]

end Template

namespace Registry

variable {ks : List Kind} {k : Kind}

lemma kinds_add (r : Registry) (k : Kind) :
    (r.add k).kinds = if k ∈ r.kinds then r.kinds else r.kinds ++ [k] := by
  unfold add
  split <;> rfl

lemma ofList_concat (ks : List Kind) (k : Kind) : ofList (ks ++ [k]) = (ofList ks).add k :=
  List.foldl_concat add empty k ks

/-- Each kind stands where it was registered first. -/
lemma kinds_ofList (ks : List Kind) : (ofList ks).kinds = ks.eraseDups := by
  induction ks using List.reverseRecOn with
  | nil => rfl
  | append_singleton ks k ih =>
    rw [ofList_concat, kinds_add, ih, List.eraseDups_append]
    by_cases hk : k ∈ ks
    · simp [List.removeAll, hk]
    · simp [List.removeAll, hk, List.eraseDups_cons]

lemma mem_kinds_ofList : k ∈ (ofList ks).kinds ↔ k ∈ ks := by
  rw [kinds_ofList, List.mem_eraseDups]

lemma table_eq (ks : List Kind) : Template.table ks = (ofList ks).kinds.map Kind.template := by
  induction ks using List.reverseRecOn with
  | nil => rfl
  | append_singleton ks k ih =>
    rw [Template.table, List.foldl_concat, ← Template.table, ih, ofList_concat, kinds_add,
      Template.put_map_template]
    split
    · rfl
    · rw [List.map_append, List.map_singleton]

lemma find?_table (ks : List Kind) (name : String) :
    (Template.table ks).find? (·.name == name) = ((ofList ks).lookup? name).map Kind.template := by
  rw [table_eq, List.find?_map]
  rfl

lemma size_ofList (ks : List Kind) : (ofList ks).size = ks.toFinset.card := by
  have hset : (ofList ks).kinds.toFinset = ks.toFinset := by
    ext k
    rw [List.mem_toFinset, List.mem_toFinset, mem_kinds_ofList]
  rw [size, ← List.toFinset_card_of_nodup (ofList ks).nodup, hset]

lemma names_increasing (r : Registry) : r.names.Pairwise (· < ·) :=
  increasing_mergeSort (r.nodup.map fun _ _ => Kind.name_injective)

lemma mem_names {r : Registry} {name : String} : name ∈ r.names ↔ ∃ k ∈ r.kinds, k.name = name := by
  rw [names, List.mem_mergeSort, List.mem_map]

lemma add_of_mem (h : k ∈ ks) : (ofList ks).add k = ofList ks := by
  rw [add, dif_pos (mem_kinds_ofList.2 h)]

/-! ### The same kinds in another order -/

section

variable {r s : Registry} (h : ∀ k, k ∈ r.kinds ↔ k ∈ s.kinds)

include h

lemma names_congr : r.names = s.names := by
  refine eq_of_increasing r.names_increasing s.names_increasing fun name => ?_
  simp only [mem_names, h]

lemma lookup?_congr (name : String) : r.lookup? name = s.lookup? name := by
  refine Option.ext fun k => ?_
  rw [Definition.lookup?_eq_some_iff, Definition.lookup?_eq_some_iff, h]

/-- Entries are read by looking up their templates. -/
lemma instantiateFrom_congr (index : ℕ) (es : List Definition.Entry) :
    Definition.instantiateFrom r index es = Definition.instantiateFrom s index es := by
  induction es generalizing index with
  | nil => rfl
  | cons e es ih =>
    have hentry : Definition.instantiate r index e = Definition.instantiate s index e := by
      rw [Definition.instantiate, Definition.instantiate, lookup?_congr h]
    rw [Definition.instantiateFrom, Definition.instantiateFrom, hentry, ih]

lemma parseDefinitions_congr (document : String) :
    parseDefinitions r document = parseDefinitions s document := by
  unfold parseDefinitions
  split
  · rfl
  · exact instantiateFrom_congr h 0 _

lemma kinds_perm : r.kinds.Perm s.kinds :=
  (List.perm_ext_iff_of_nodup r.nodup s.nodup).2 h

end

/-- **Registrations keep each kind once, where it came first**, and their order decides only that of
the ratio rules. -/
theorem registrations_keepFirst (ks : List Kind) :
    -- the templates are those of the different kinds, in the order of first registration
    (ofList ks).kinds = ks.eraseDups ∧
    Template.table ks = ks.eraseDups.map Kind.template ∧
    -- a name leads to the template of the registered kind that has it
    (∀ name t, (Template.table ks).find? (·.name == name) = some t ↔
      ∃ k ∈ ks, k.name = name ∧ t = k.template) ∧
    (∀ name k, (ofList ks).lookup? name = some k ↔ k ∈ ks ∧ k.name = name) ∧
    (ofList ks).size = ks.toFinset.card ∧
    -- the names are strictly increasing
    (ofList ks).names.Pairwise (· < ·) ∧
    (∀ name, name ∈ (ofList ks).names ↔ ∃ k ∈ ks, k.name = name) ∧
    -- each kind brings its ratio rules once
    (ofList ks).ratioRules = (ks.eraseDups.map Kind.ratioRules).flatten ∧
    -- a kind that is registered again changes nothing
    (∀ k ∈ ks, ofList (ks ++ [k]) = ofList ks ∧ Template.table (ks ++ [k]) = Template.table ks) ∧
    -- nor does the order, but for that of the blocks of ratio rules
    ∀ ls : List Kind, (∀ k, k ∈ ks ↔ k ∈ ls) →
      (ofList ks).names = (ofList ls).names ∧
      (∀ document, parseDefinitions (ofList ks) document =
        parseDefinitions (ofList ls) document) ∧
      ks.eraseDups.Perm ls.eraseDups ∧
      ∀ p : Pipeline,
        p.build (ofList ks) = ⟨[⟨p.name,
          p.rules ++ (ks.eraseDups.map Kind.ratioRules).flatten ++ alertRules⟩]⟩ ∧
        p.build (ofList ls) = ⟨[⟨p.name,
          p.rules ++ (ls.eraseDups.map Kind.ratioRules).flatten ++ alertRules⟩]⟩ := by
  have hrules (ls : List Kind) :
      (ofList ls).ratioRules = (ls.eraseDups.map Kind.ratioRules).flatten := by
    rw [ratioRules, kinds_ofList, List.flatMap_def]
  have hlookup (name : String) (k : Kind) :
      (ofList ks).lookup? name = some k ↔ k ∈ ks ∧ k.name = name := by
    rw [Definition.lookup?_eq_some_iff, mem_kinds_ofList]
  refine ⟨kinds_ofList ks, by rw [table_eq, kinds_ofList], fun name t => ?_, hlookup,
    size_ofList ks, names_increasing _, fun name => by simp only [mem_names, mem_kinds_ofList],
    hrules ks, fun k hk => ?_, fun ls hls => ?_⟩
  · simp only [find?_table, Option.map_eq_some_iff, hlookup, and_assoc, eq_comm (b := t)]
  · have hadd : ofList (ks ++ [k]) = ofList ks := by rw [ofList_concat, add_of_mem hk]
    exact ⟨hadd, by rw [table_eq, table_eq, hadd]⟩
  · have hkinds (k : Kind) : k ∈ (ofList ks).kinds ↔ k ∈ (ofList ls).kinds := by
      rw [mem_kinds_ofList, mem_kinds_ofList, hls]
    have hperm := kinds_perm hkinds
    rw [kinds_ofList, kinds_ofList] at hperm
    refine ⟨names_congr hkinds, parseDefinitions_congr hkinds, hperm, fun p => ⟨?_, ?_⟩⟩
    · rw [Pipeline.build, hrules]
    · rw [Pipeline.build, hrules]

end Registry

end BurnRate
