import BurnRate.FileSystem
import BurnRate.Proofs.Results

/-!
What a file system holds after a write.

Writing changes one location. The directories on the way to it are there before, so nothing else
comes to be, and the path that was written reads back the text.
-/

namespace BurnRate.FileSystem

variable {fs fs' : FileSystem} {l m : Location} {t : Target} {names : List String}
  {path text : String}

/-! ### The way of a path -/

/-- Whatever has no entry of its own on the way to the location is a directory. -/
def Leads (fs : FileSystem) (l : Location) : Prop :=
  ∀ m, m <+: l → fs.entries.lookup m = none → fs.at? m = some .directory

lemma Leads.mono (h : fs.Leads l) (hm : m <+: l) : fs.Leads m :=
  fun n hn => h n (hn.trans hm)

lemma Leads.concat {name : String} (h : fs.Leads l)
    (hnext : fs.at? (l ++ [name]) = some .directory) : fs.Leads (l ++ [name]) := by
  intro m hm hnone
  rcases List.prefix_concat_iff.1 hm with rfl | hm
  · exact hnext
  · exact h m hm hnone

lemma leads_current (fs : FileSystem) : fs.Leads fs.current := by
  intro m hm hnone
  have hprefix : m.isPrefixOf fs.current = true := List.isPrefixOf_iff_prefix.2 hm
  simp [at?, hnone, hprefix]

/-- A place for a file: what is there is not a directory, and only directories lead there. -/
structure Target.IsPlace (fs : FileSystem) (t : Target) : Prop where
  found : t.found? = fs.at? t.location
  leads : ∃ l name, t.location = l ++ [name] ∧ fs.Leads l

/-- A path ends in a directory or in a place behind directories. -/
lemma walk_ends (hl : fs.Leads l) (h : fs.walk l names = .ok t) :
    t.found? = some .directory ∨ t.IsPlace fs := by
  fun_induction walk fs l names with
  | case1 | case2 =>
    cases h
    exact .inl rfl
  | case3 l _ _ _ _ ih => exact ih hl h
  | case4 l _ _ _ _ ih => exact ih (hl.mono (List.dropLast_prefix l)) h
  | case6 l name =>
    cases h
    exact .inr ⟨rfl, l, name, rfl, hl⟩
  | case7 l name _ _ _ next names _ hdirectory ih => exact ih (hl.concat hdirectory) h
  | case9 l name _ _ _ next names _ hfree =>
    cases h
    exact .inr ⟨hfree.symm, l, name, rfl, hl⟩
  | case5 | case8 | case10 => cases h

/-- A path leads to the same place when nothing but what is there changes. -/
lemma walk_of_agree {place : Location} (hagree : ∀ m, m ≠ place → fs'.at? m = fs.at? m)
    (hplace : fs.at? place ≠ some .directory) (h : fs.walk l names = .ok t)
    (hlocation : t.location = place) (hfound : t.found? ≠ some .directory)
    (hslash : t.slash = true → t.found? ≠ none) :
    fs'.walk l names = .ok { t with found? := fs'.at? place } := by
  fun_induction walk fs l names with
  | case1 | case2 =>
    cases h
    exact absurd rfl hfound
  | case3 l name names hdot hmore ih => rw [walk, if_pos hdot, if_neg hmore, ih h]
  | case4 l name names hdot hup ih => rw [walk, if_neg hdot, if_pos hup, ih h]
  | case6 l name hdot hup hlong next =>
    cases h
    rw [walk, if_neg hdot, if_neg hup, if_neg hlong, ← hlocation]
  | case7 l name hdot hup hlong next names hmore hdirectory ih =>
    have hne : next ≠ place := by
      rintro rfl
      exact hplace hdirectory
    have hnext : fs'.at? (l ++ [name]) = some .directory :=
      (hagree next hne).trans hdirectory
    rw [walk, if_neg hdot, if_neg hup, if_neg hlong, ← ih h]
    simp only [hnext]
    rfl
  | case9 =>
    cases h
    exact absurd rfl (hslash rfl)
  | case5 | case8 | case10 => cases h

/-- What follows from a path that leads somewhere. -/
lemma resolve_ok (h : fs.resolve path = .ok t) :
    ∃ l names, fs.Leads l ∧ fs.walk l names = .ok t ∧
      ∀ fs' : FileSystem, fs'.current = fs.current → fs'.resolve path = fs'.walk l names := by
  unfold resolve at h
  split at h
  · cases h
  · next hnul =>
    split at h
    · cases h
    · next hempty =>
      split at h
      · cases h
      · next hlong =>
        split at h
        · next names hnames =>
          refine ⟨[], names, fun m hm => ?_, h, fun fs' _ => ?_⟩
          · rw [List.prefix_nil.1 hm]
            exact fs.leads_current [] List.nil_prefix
          · rw [resolve, if_neg hnul, if_neg hempty, if_neg hlong, hnames]
            rfl
        · next hrelative =>
          refine ⟨_, _, fs.leads_current, h, fun fs' hcurrent => ?_⟩
          rw [resolve, if_neg hnul, if_neg hempty, if_neg hlong, hcurrent]
          split
          · next names hnames => exact absurd hnames (hrelative names)
          · rfl

/-! ### Writing -/

/-- The file system with a file more. -/
def put (fs : FileSystem) (l : Location) (content : ByteArray) : FileSystem :=
  { fs with entries := (l, .file content) :: fs.entries }

lemma at?_put_self (fs : FileSystem) (l : Location) (content : ByteArray) :
    (fs.put l content).at? l = some (.file content) := by
  simp [at?, put]

/-- A file behind directories leaves all other locations as they were. -/
lemma at?_put_of_ne (ht : t.IsPlace fs) (content : ByteArray) (hne : l ≠ t.location) :
    (fs.put t.location content).at? l = fs.at? l := by
  obtain ⟨parent, name, hlocation, hleads⟩ := ht.leads
  have hlookup : (fs.put t.location content).entries.lookup l = fs.entries.lookup l := by
    rw [put, List.lookup_cons, beq_eq_false_iff_ne.2 hne]
  cases hl : fs.entries.lookup l with
  | some e => simp only [at?, hlookup, hl]
  | none =>
    have hany : (fs.put t.location content).entries.any (fun e => l.isPrefixOf e.1) =
        (l.isPrefixOf t.location || fs.entries.any fun e => l.isPrefixOf e.1) := List.any_cons
    by_cases hprefix : l <+: t.location
    · -- A directory on the way to the file was one before, with entries of its own or not.
      have hparent : l <+: parent := by
        rw [hlocation] at hprefix hne
        exact (List.prefix_concat_iff.1 hprefix).resolve_left hne
      rw [hleads l hparent hl]
      simp only [at?, hlookup, hl, hany, List.isPrefixOf_iff_prefix.2 hprefix, Bool.true_or,
        Bool.or_true, if_true]
    · have hno : l.isPrefixOf t.location = false := by
        rwa [← Bool.not_eq_true, List.isPrefixOf_iff_prefix]
      simp only [at?, hlookup, hl, hany, hno, Bool.false_or]
      rfl

/-- The path leads to one location, which comes to hold the text and nothing else. All other
locations are as before. -/
structure Receives (fs : FileSystem) (path text : String) (fs' : FileSystem) : Prop where
  location : ∃ t, fs.resolve path = .ok t ∧ fs'.at? t.location = some (.file text.toUTF8) ∧
    ∀ l, l ≠ t.location → fs'.at? l = fs.at? l
  current : fs'.current = fs.current
  reads : fs'.readText path = .ok text

lemma writeText_ok (h : fs.writeText path text = .ok fs') :
    ∃ t, fs.resolve path = .ok t ∧ t.found? ≠ some .directory ∧
      (t.slash = true → t.found? ≠ none) ∧ fs' = fs.put t.location text.toUTF8 := by
  obtain ⟨t, ht, h⟩ := bind_eq_ok_iff.1 h
  refine ⟨t, ht, ?_⟩
  split at h
  · cases h
  · next hfile =>
    split at h
    · cases h
    · next hslash =>
      cases h
      refine ⟨fun hdirectory => hfile hdirectory, fun hs hnone => hslash ?_, rfl⟩
      rw [hs, hnone]
      rfl

lemma fromUTF8?_toUTF8 (s : String) : String.fromUTF8? s.toUTF8 = some s := by
  rw [String.toUTF8_eq_toByteArray, String.fromUTF8?, dif_pos s.isValidUTF8]
  rfl

/-- **Writing**: a write that succeeds puts the text, and changes nothing else. -/
theorem receives_of_writeText (h : fs.writeText path text = .ok fs') :
    fs.Receives path text fs' := by
  obtain ⟨t, ht, hfound, hslash, rfl⟩ := writeText_ok h
  obtain ⟨l, names, hleads, hwalk, hresolve⟩ := resolve_ok ht
  have hplace : t.IsPlace fs := (walk_ends hleads hwalk).resolve_left hfound
  have hself := fs.at?_put_self t.location text.toUTF8
  have hagree (m : Location) (hm : m ≠ t.location) :
      (fs.put t.location text.toUTF8).at? m = fs.at? m := at?_put_of_ne hplace _ hm
  refine ⟨⟨t, ht, hself, hagree⟩, rfl, ?_⟩
  have hcurrent : (fs.put t.location text.toUTF8).current = fs.current := rfl
  have hafter := walk_of_agree hagree (hplace.found ▸ hfound) hwalk rfl hfound hslash
  rw [readText, hresolve _ hcurrent, hafter, hself]
  simp only [bind, Except.bind, fromUTF8?_toUTF8]

end BurnRate.FileSystem
