import BurnRate.CommandLine.Run
import BurnRate.Proofs.DefinitionSequence
import BurnRate.Proofs.PipelineHistory
import BurnRate.Proofs.ValidatedRules
import BurnRate.Proofs.WrittenFiles

/-!
What the program does when it is asked to build a group.

It succeeds or fails as a whole: there is no output and no change of a file unless all definitions
are read and all rules are made.
-/

namespace BurnRate.CommandLine

variable {fs : FileSystem} {name text : String} {output? : Option String} {paths : List String}
  {slos : List Slo}

/-- The objectives that the files at the paths define, in their order. -/
def Loads (fs : FileSystem) (paths : List String) (slos : List Slo) : Prop :=
  ∃ sss, List.Forall₂ (fun path ss => ∃ document, fs.readText path = .ok document ∧
    parseDefinitions .default document = .ok ss) paths sss ∧ slos = sss.flatten

lemma loadDefinitions_ok_iff_loads :
    loadDefinitions .default fs.readText paths = .ok slos ↔ Loads fs paths slos := by
  induction paths generalizing slos with
  | nil => simp [loadDefinitions, Loads, eq_comm]
  | cons path paths ih =>
    simp only [loadDefinitions, bind_eq_ok_iff, mapError_ok_iff, ih, pure, Except.pure,
      Except.ok.injEq]
    constructor
    · rintro ⟨document, hread, ss, hparse, slos, ⟨sss, hsss, rfl⟩, rfl⟩
      exact ⟨ss :: sss, .cons ⟨document, hread, hparse⟩ hsss, rfl⟩
    · rintro ⟨_, _ | ⟨⟨document, hread, hparse⟩, hsss⟩, rfl⟩
      exact ⟨document, hread, _, hparse, _, ⟨_, hsss, rfl⟩, rfl⟩

lemma Loads.unique {slos' : List Slo} (h : Loads fs paths slos) (h' : Loads fs paths slos') :
    slos = slos' := by
  rw [← loadDefinitions_ok_iff_loads] at h h'
  rw [h] at h'
  exact Except.ok.inj h'

/-- All that making a group asks for: the files define the objectives, no two of them have one
name, and their rules can be made. -/
structure Buildable (fs : FileSystem) (paths : List String) (slos : List Slo) : Prop where
  loads : Loads fs paths slos
  distinct : (slos.map Slo.name).Nodup
  rendered : ∀ s ∈ slos, ∃ rs, s.rules = .ok rs

/-- The text of the group that a pipeline builds. -/
abbrev groupText (p : Pipeline) : String := (p.build .default).toYaml

/-- The text of a group is made when the group can be, and is that of the pipeline that the
objectives are registered with. -/
lemma ruleFile_ok_iff :
    ruleFile fs.readText name paths = .ok text ↔
      ∃ slos p, Buildable fs paths slos ∧ Pipeline.registerAll { name } slos = .ok p ∧
        text = groupText p := by
  simp only [ruleFile, bind_eq_ok_iff, mapError_ok_iff, loadDefinitions_ok_iff_loads, pure,
    Except.pure, Except.ok.injEq]
  constructor
  · rintro ⟨slos, hloads, p, hp, rfl⟩
    obtain ⟨hdistinct, hrendered⟩ := Pipeline.registerAll_start_ok_iff.1 ⟨p, hp⟩
    exact ⟨slos, p, ⟨hloads, hdistinct, hrendered⟩, hp, rfl⟩
  · rintro ⟨slos, p, hslos, hp, rfl⟩
    exact ⟨slos, hslos.loads, p, hp, rfl⟩

lemma Buildable.exists_ruleFile (h : Buildable fs paths slos) (name : String) :
    ∃ p, Pipeline.registerAll { name } slos = .ok p ∧
      ruleFile fs.readText name paths = .ok (groupText p) := by
  obtain ⟨p, hp⟩ := Pipeline.registerAll_start_ok_iff.2 ⟨h.distinct, h.rendered⟩
  exact ⟨p, hp, ruleFile_ok_iff.2 ⟨slos, p, h, hp, rfl⟩⟩

/-! ### How a run ends -/

/-- The run fails, without any output or change. -/
structure Outcome.Fails (o : Outcome) (fs : FileSystem) : Prop where
  exitCode : o.exitCode = 1
  stdout : o.stdout = ""
  files : o.files = fs

/-- The run prints the text and does nothing else. -/
structure Outcome.Prints (o : Outcome) (fs : FileSystem) (text : String) : Prop where
  exitCode : o.exitCode = 0
  stdout : o.stdout = text
  files : o.files = fs

/-- The run writes the text and does nothing else. -/
structure Outcome.Writes (o : Outcome) (fs : FileSystem) (path text : String) : Prop where
  exitCode : o.exitCode = 0
  stdout : o.stdout = ""
  files : fs.Receives path text o.files

/-- How a run ends that has the text to give out. -/
structure Outcome.GivesOut (o : Outcome) (fs : FileSystem) (output? : Option String)
    (text : String) : Prop where
  prints : output? = none → o.Prints fs text
  writes : ∀ path fs', output? = some path → fs.writeText path text = .ok fs' →
    o.Writes fs path text
  unwritten : ∀ path e, output? = some path → fs.writeText path text = .error e → o.Fails fs

section

variable {program : String} {args : List String} {env? : Option String} {i : Invocation}

lemma fails_of_perform {e : ErrorChain} (hparse : parse args env? = .ok i)
    (h : perform fs i.command = .error e) : (run program args env? fs).Fails fs := by
  rw [run, hparse]
  simp only [h]
  exact ⟨rfl, rfl, rfl⟩

lemma run_of_perform {stdout : String} {fs' : FileSystem} (hparse : parse args env? = .ok i)
    (h : perform fs i.command = .ok (stdout, fs')) :
    run program args env? fs = { exitCode := 0, stdout, files := fs' } := by
  rw [run, hparse]
  simp only [h]

lemma givesOut_of_ruleFile (hparse : parse args env? = .ok i)
    (hcommand : i.command = .build name output? paths)
    (h : ruleFile fs.readText name paths = .ok text) :
    (run program args env? fs).GivesOut fs output? text := by
  constructor
  · rintro rfl
    have hperform : perform fs i.command = .ok (text, fs) := by
      simp [perform, effectOf, hcommand, h, bind, Except.bind, pure, Except.pure]
    rw [run_of_perform hparse hperform]
    exact ⟨rfl, rfl, rfl⟩
  · rintro path fs' rfl hwrite
    have hperform : perform fs i.command = .ok ("", fs') := by
      simp [perform, effectOf, hcommand, h, hwrite, bind, Except.bind, pure, Except.pure,
        Except.mapError]
    rw [run_of_perform hparse hperform]
    exact ⟨rfl, rfl, FileSystem.receives_of_writeText hwrite⟩
  · rintro path e rfl hwrite
    have hperform : perform fs i.command = .error (writeError path e) := by
      simp [perform, effectOf, hcommand, h, hwrite, bind, Except.bind, pure, Except.pure,
        Except.mapError]
    exact fails_of_perform hparse hperform

lemma fails_of_ruleFile {e : ErrorChain} (hparse : parse args env? = .ok i)
    (hcommand : i.command = .build name output? paths)
    (h : ruleFile fs.readText name paths = .error e) :
    (run program args env? fs).Fails fs := by
  have hperform : perform fs i.command = .error e := by
    simp [perform, effectOf, hcommand, h, bind, Except.bind]
  exact fails_of_perform hparse hperform

lemma Outcome.GivesOut.exitCode_eq_zero_iff {o : Outcome} (h : o.GivesOut fs output? text) :
    o.exitCode = 0 ↔ ∀ path ∈ output?, ∃ fs', fs.writeText path text = .ok fs' := by
  cases output? with
  | none => simp [(h.prints rfl).exitCode]
  | some path =>
    simp only [Option.mem_def, Option.some.injEq, forall_eq']
    cases hwrite : fs.writeText path text with
    | error e => simp [(h.unwritten path e rfl hwrite).exitCode]
    | ok fs' => simp [(h.writes path fs' rfl hwrite).exitCode]

/-- **No partial output**: the group is given out as a whole, or there is no output and no change
at all. -/
theorem run_build (program : String) (fs : FileSystem) (hparse : parse args env? = .ok i)
    (hcommand : i.command = .build name output? paths) :
    -- it ends well if the group can be made, and its text written where that is asked for
    ((run program args env? fs).exitCode = 0 ↔
      ∃ slos p, Buildable fs paths slos ∧ Pipeline.registerAll { name } slos = .ok p ∧
        ∀ path ∈ output?, ∃ fs', fs.writeText path (groupText p) = .ok fs') ∧
    -- then the text is all that is printed, or all that the file holds
    (∀ slos, Buildable fs paths slos → ∃ p, Pipeline.registerAll { name } slos = .ok p ∧
      (run program args env? fs).GivesOut fs output? (groupText p)) ∧
    -- or else nothing is printed or changed
    ((¬ ∃ slos, Buildable fs paths slos) → (run program args env? fs).Fails fs) := by
  refine ⟨?_, fun slos hslos => ?_, fun hno => ?_⟩
  · cases h : ruleFile fs.readText name paths with
    | error e =>
      rw [(fails_of_ruleFile hparse hcommand h).exitCode]
      refine ⟨fun hzero => absurd hzero (by decide), ?_⟩
      rintro ⟨slos, p, hslos, hp, -⟩
      rw [ruleFile_ok_iff.2 ⟨slos, p, hslos, hp, rfl⟩] at h
      cases h
    | ok text =>
      rw [(givesOut_of_ruleFile hparse hcommand h).exitCode_eq_zero_iff]
      obtain ⟨slos, p, hslos, hp, rfl⟩ := ruleFile_ok_iff.1 h
      refine ⟨fun hwrite => ⟨slos, p, hslos, hp, hwrite⟩, ?_⟩
      rintro ⟨slos', p', hslos', hp', hwrite⟩
      cases hslos.loads.unique hslos'.loads
      cases Except.ok.inj (hp.symm.trans hp')
      exact hwrite
  · obtain ⟨p, hp, h⟩ := hslos.exists_ruleFile name
    exact ⟨p, hp, givesOut_of_ruleFile hparse hcommand h⟩
  · cases h : ruleFile fs.readText name paths with
    | error e => exact fails_of_ruleFile hparse hcommand h
    | ok text =>
      obtain ⟨slos, -, hslos, -⟩ := ruleFile_ok_iff.1 h
      exact absurd ⟨slos, hslos⟩ hno

end

open Definition (documentOf apiText api)

/-- One file, with one definition. -/
def plainFiles : FileSystem :=
  { entries := [(["slos.yaml"], .file (documentOf [apiText]).toUTF8)] }

lemma splitOn_plain : "slos.yaml".splitOn "/" = ["slos.yaml"] := by
  rw [String.splitOn, if_neg (by decide)]
  iterate 9
    rw [String.splitOnAux, if_neg (by decide +kernel), if_neg (by decide +kernel)]
  rw [String.splitOnAux, if_pos (by decide +kernel)]
  decide +kernel

lemma resolve_plain : plainFiles.resolve "slos.yaml" =
    .ok ⟨["slos.yaml"], some (.file (documentOf [apiText]).toUTF8), false⟩ := by
  rw [FileSystem.resolve, if_neg (by decide +kernel), if_neg (by decide +kernel),
    if_neg (by decide +kernel), splitOn_plain]
  change plainFiles.walk [] ["slos.yaml"] = _
  rw [FileSystem.walk, if_neg (by decide), if_neg (by decide), if_neg (by decide +kernel)]
  rfl

lemma rules_api : ∃ rs, (Slo.errorRate api).rules = .ok rs := by
  have htotal : ∀ p ∈ (Slo.errorRate api).perWindow, p.IsTotal :=
    Slo.isTotal_requestErrors (by decide +kernel)
  refine Slo.rules_ok_iff.2 fun p hp => ?_
  obtain ⟨field, hfield⟩ := Slo.checkField_of_validate Definition.api_defined.validate hp
  exact (htotal p hp).renders hfield

lemma buildable_plain : Buildable plainFiles ["slos.yaml"] [.errorRate api] where
  loads := by
    have hread : plainFiles.readText "slos.yaml" = .ok (documentOf [apiText]) := by
      rw [FileSystem.readText, resolve_plain]
      simp only [bind, Except.bind, FileSystem.fromUTF8?_toUTF8]
    have hparse : parseDefinitions .default (documentOf [apiText]) = .ok [.errorRate api] :=
      (Definition.parseDefinitions_ok_iff Definition.allOfText?_api).2
        (.cons Definition.api_defined .nil)
    exact ⟨[[.errorRate api]], .cons ⟨_, hread, hparse⟩ .nil, rfl⟩
  distinct := List.nodup_singleton _
  rendered := by
    intro s hs
    rw [List.mem_singleton.1 hs]
    exact rules_api

/-- The group of a file may take the place of the file. -/
theorem plainFile_built :
    ∃ p, Pipeline.registerAll { name := "slo-builder" } [.errorRate api] = .ok p ∧
      (run "burn-rate" ["build", "-o", "slos.yaml", "slos.yaml"] none plainFiles).Writes plainFiles
        "slos.yaml" (groupText p) := by
  have hcommand : parse ["build", "-o", "slos.yaml", "slos.yaml"] none =
      .ok ⟨.text, .build "slo-builder" (some "slos.yaml") ["slos.yaml"]⟩ := by decide +kernel
  obtain ⟨-, hmade, -⟩ := run_build "burn-rate" plainFiles hcommand rfl
  obtain ⟨p, hp, hgives⟩ := hmade [.errorRate api] buildable_plain
  refine ⟨p, hp, hgives.writes _ (plainFiles.put ["slos.yaml"] (groupText p).toUTF8) rfl ?_⟩
  rw [FileSystem.writeText, resolve_plain]
  rfl

end BurnRate.CommandLine
