import BurnRate.CommandLine.Parser
import BurnRate.Proofs.Results

/-!
The log format of the command line and of the environment.

The option counts more than the environment. But a level of the command line on which it is not
given takes the value of the environment and checks it. So a value that is no format is refused,
unless the option is given on both levels.
-/

namespace BurnRate.CommandLine

/-! ### Command lines as texts -/

/-- The argument is `--log-format`, with or without a value behind an equals sign. -/
def isFormatOption (arg : String) : Bool :=
  arg.toList.takeWhile (· != '=') == "--log-format".toList

/-- The option is among the arguments, before two dashes end the options. -/
def givesFormat (args : List String) : Bool := (args.takeWhile (· != "--")).any isFormatOption

/-- The arguments before the subcommand. -/
def outerArguments (args : List String) : List String :=
  args.takeWhile fun arg => (Level.ofName? arg).isNone

/-- The arguments behind the subcommand. -/
def innerArguments (args : List String) : List String :=
  (args.dropWhile fun arg => (Level.ofName? arg).isNone).tail

lemma givesFormat_cons (arg : String) (args : List String) :
    givesFormat (arg :: args) = (arg != "--" && (isFormatOption arg || givesFormat args)) := by
  rw [givesFormat, givesFormat, List.takeWhile_cons]
  split
  · next hne => rw [hne, List.any_cons, Bool.true_and]
  · next heq =>
    rw [Bool.eq_false_iff.2 heq]
    rfl

/-- A subcommand does not start with a dash. -/
lemma ofName?_eq_none {arg : String} (h : arg.toList.head? = some '-') :
    Level.ofName? arg = none := by
  rw [Level.ofName?, List.find?_eq_none]
  intro l hl heq
  rw [← beq_iff_eq.1 heq] at h
  revert h
  simp only [Level.subcommands, List.mem_cons, List.not_mem_nil, or_false] at hl
  rcases hl with rfl | rfl | rfl <;> decide

lemma ofName?_name {l : Level} {arg : String} (h : Level.ofName? arg = some l) : l.name = arg := by
  have hname := List.find?_some (h : Level.subcommands.find? (·.name == arg) = some l)
  exact beq_iff_eq.1 hname

/-- No subcommand has the name of a format. -/
lemma ofName?_of_format {arg : String} (h : (LogFormat.ofName? arg).isSome) :
    Level.ofName? arg = none := by
  obtain ⟨f, hf⟩ := Option.isSome_iff_exists.1 h
  have hname := List.find?_some (hf : LogFormat.all.find? (·.name == arg) = some f)
  rw [← beq_iff_eq.1 hname]
  cases f <;> decide

/-- The words up to the first subcommand are the outer arguments. -/
lemma outerArguments_append {read : List String} {l : Level} (rest : List String)
    (hread : ∀ arg ∈ read, Level.ofName? arg = none) (hl : Level.ofName? l.name = some l) :
    outerArguments (read ++ l.name :: rest) = read ∧
      innerArguments (read ++ l.name :: rest) = rest := by
  have hread' : ∀ arg ∈ read, (Level.ofName? arg).isNone = true :=
    fun arg harg => Option.isNone_iff_eq_none.2 (hread arg harg)
  rw [outerArguments, innerArguments, List.takeWhile_append_of_pos hread',
    List.dropWhile_append_of_pos hread', List.takeWhile_cons, List.dropWhile_cons, hl]
  exact ⟨List.append_nil read, rfl⟩

namespace Progress

variable {l : Level} {p q r : Progress} {a : Argument} {values : List String} {value : String}

/-! ### What is known of the log format -/

/-- The option has been given, and is not dealt with so far. -/
def AwaitsFormat (p : Progress) : Prop := ∃ values, p.pending? = some (.logFormat, values)

/-- The option has been given. -/
def KnowsFormat (p : Progress) : Prop := (p.values? .logFormat).isSome ∨ p.AwaitsFormat

/-- If the option has been dealt with, its value is a format. -/
def IsChecked (p : Progress) : Prop := (p.values? .logFormat).isSome → p.format?.isSome

/-- From one state to a later one. `given` tells whether the option has come in between. -/
structure Passes (p q : Progress) (given : Prop) : Prop where
  knows : q.KnowsFormat ↔ p.KnowsFormat ∨ given
  checked : p.IsChecked → q.IsChecked

lemma Passes.trans {g h : Prop} (hpq : Passes p q g) (hqr : Passes q r h) :
    Passes p r (g ∨ h) where
  knows := by rw [hqr.knows, hpq.knows, or_assoc]
  checked := hqr.checked ∘ hpq.checked

lemma Passes.congr {g h : Prop} (hpq : Passes p q g) (hiff : g ↔ h) : Passes p q h := by
  rwa [← propext hiff]

/-- A step that leaves alone what has been dealt with. -/
lemma passes_of_given {g : Prop} (hgiven : q.given = p.given)
    (hawaits : q.AwaitsFormat ↔ p.AwaitsFormat ∨ g) : Passes p q g := by
  have hvalues : q.values? .logFormat = p.values? .logFormat := by rw [values?, values?, hgiven]
  refine ⟨?_, fun h => ?_⟩
  · rw [KnowsFormat, KnowsFormat, hvalues, hawaits, or_assoc]
  · rwa [IsChecked, format?, hvalues]

lemma awaitsFormat_none (h : p.pending? = none) : p.AwaitsFormat ↔ False := by
  simp [AwaitsFormat, h]

lemma awaitsFormat_some (h : p.pending? = some (a, values)) :
    p.AwaitsFormat ↔ a = .logFormat := by
  rw [AwaitsFormat, h]
  exact ⟨fun ⟨_, heq⟩ => (Prod.mk.inj (Option.some.inj heq)).1, fun ha => ⟨values, by rw [ha]⟩⟩

/-- What becomes pending where nothing was. -/
lemma passes_pending (hgiven : q.given = p.given) (hp : p.pending? = none)
    (hq : q.pending? = some (a, values)) : Passes p q (a = .logFormat) := by
  apply passes_of_given hgiven
  rw [awaitsFormat_none hp, awaitsFormat_some hq, false_or]

/-! ### Values -/

/-- Values are added to those of one argument only. -/
lemma lookup_map (given : List (Argument × List String)) (a b : Argument) (values : List String) :
    (given.map fun (b, vs) => if b = a then (b, vs ++ values) else (b, vs)).lookup b =
      (given.lookup b).map fun vs => if b = a then vs ++ values else vs := by
  induction given with
  | nil => rfl
  | cons e given ih =>
    obtain ⟨c, vs⟩ := e
    have hkey : (if c = a then (c, vs ++ values) else (c, vs)) =
        (c, if c = a then vs ++ values else vs) := by
      split <;> rfl
    rw [List.map_cons]
    dsimp only
    rw [hkey, List.lookup_cons, List.lookup_cons, ih]
    by_cases hb : b = c
    · rw [hb, beq_self_eq_true]
      rfl
    · rw [beq_eq_false_iff_ne.2 hb]

lemma values?_addValues (p : Progress) (a b : Argument) (values : List String) :
    (p.addValues a values).values? b =
      if b = a then some ((p.values? a).getD [] ++ values) else p.values? b := by
  unfold addValues
  split
  · next hsome =>
    obtain ⟨vs, hvs⟩ := Option.isSome_iff_exists.1 hsome
    rw [values?, lookup_map]
    split
    · next heq =>
      subst heq
      rw [values?] at hvs
      rw [values?, hvs]
      rfl
    · rw [Option.map_id', values?]
  · next hnone =>
    rw [Option.not_isSome_iff_eq_none] at hnone
    rw [values?, List.lookup_append, hnone]
    rw [values?] at hnone
    split
    · next heq =>
      subst heq
      rw [hnone]
      simp
    · next hne =>
      have hne' : (b == a) = false := beq_eq_false_iff_ne.2 hne
      rw [List.lookup_cons, hne', List.lookup_nil, Option.or_none, values?]

/-- A value that the log format may have is a format. -/
lemma isSome_of_checkValue (h : checkValue .logFormat value = .ok ()) :
    (LogFormat.ofName? value).isSome := by
  unfold checkValue at h
  dsimp only at h
  split at h
  · cases h
  · split at h
    · next hsome => exact hsome
    · cases h

lemma forM_ok_iff {check : String → Except Complaint Unit} :
    values.forM check = .ok () ↔ ∀ v ∈ values, check v = .ok () := by
  induction values with
  | nil => exact iff_of_true rfl (by simp)
  | cons v values ih =>
    have hcons : (v :: values).forM check = (check v >>= fun _ => values.forM check) := rfl
    rw [hcons, bind_eq_ok_iff, List.forall_mem_cons, ← ih]
    exact ⟨fun ⟨_, hv, hvalues⟩ => ⟨hv, hvalues⟩, fun ⟨hv, hvalues⟩ => ⟨_, hv, hvalues⟩⟩

/-- What is accepted was not given before, and its values are in order. -/
lemma accept_eq_ok_iff : p.accept l a values = (q, .ok ()) ↔ q = p.addValues a values ∧
    values ≠ [] ∧ (a ≠ .definitions → p.values? a = none) ∧
    ∀ v ∈ values, checkValue a v = .ok () := by
  unfold accept
  split
  · next hvalues =>
    refine iff_of_false (by rintro ⟨⟩) fun ⟨_, hne, _⟩ => hne ?_
    simpa using hvalues
  · next hvalues =>
    split
    · next hold =>
      rw [Bool.and_eq_true, decide_eq_true_eq] at hold
      refine iff_of_false (by rintro ⟨⟩) fun ⟨_, _, hnew, _⟩ => ?_
      rw [hnew hold.1] at hold
      cases hold.2
    · next hnew =>
      have hnone : a ≠ .definitions → p.values? a = none := fun ha => by simpa [ha] using hnew
      rw [Prod.mk.injEq, forM_ok_iff, eq_comm (a := q)]
      exact ⟨fun ⟨hq, hchecked⟩ => ⟨hq, by simpa using hvalues, hnone, hchecked⟩,
        fun ⟨hq, _, _, hchecked⟩ => ⟨hq, hchecked⟩⟩

lemma settle_eq_ok_iff : p.settle l = .ok q ↔ p.settled l = (q, .ok ()) := by
  unfold settle
  obtain ⟨s, result⟩ := p.settled l
  constructor
  · intro h
    obtain ⟨⟨⟩, hresult, hs⟩ := bind_eq_ok_iff.1 h
    cases hs
    rw [hresult]
  · rintro ⟨⟩
    rfl

@[simp] lemma pending?_addValues (p : Progress) (a : Argument) (values : List String) :
    (p.addValues a values).pending? = p.pending? := by
  unfold addValues
  split <;> rfl

@[simp] lemma awaiting_addValues (p : Progress) (a : Argument) (values : List String) :
    (p.addValues a values).awaiting = p.awaiting := by
  unfold addValues
  split <;> rfl

@[simp] lemma trailing_addValues (p : Progress) (a : Argument) (values : List String) :
    (p.addValues a values).trailing = p.trailing := by
  unfold addValues
  split <;> rfl

lemma passes_accept (h : p.accept l a values = (q, .ok ())) :
    Passes p q (a = .logFormat) ∧ q.pending? = p.pending? ∧ q.trailing = p.trailing := by
  obtain ⟨rfl, hne, hnew, hchecked⟩ := accept_eq_ok_iff.1 h
  refine ⟨⟨?_, fun hp => ?_⟩, pending?_addValues p a values, trailing_addValues p a values⟩
  · rw [KnowsFormat, KnowsFormat, AwaitsFormat, AwaitsFormat, pending?_addValues, values?_addValues,
      eq_comm (a := a)]
    by_cases ha : Argument.logFormat = a
    · rw [if_pos ha]
      exact iff_of_true (.inl rfl) (.inr ha)
    · rw [if_neg ha, or_iff_left ha]
  · rw [IsChecked, format?, values?_addValues]
    split
    · next ha =>
      subst ha
      obtain ⟨v, vs, rfl⟩ := List.exists_cons_of_ne_nil hne
      intro _
      rw [hnew (by decide)]
      exact isSome_of_checkValue (hchecked v List.mem_cons_self)
    · exact hp

/-- The value that is pending, if any, is a format. -/
def HasFormatPending (p : Progress) : Prop :=
  ∀ values, p.pending? = some (.logFormat, values) →
    ∀ v ∈ values, (LogFormat.ofName? v).isSome

/-- What has been settled is no longer pending. -/
lemma passes_settle (h : p.settle l = .ok q) :
    Passes p q False ∧ q.pending? = none ∧ q.trailing = p.trailing ∧ p.HasFormatPending := by
  have hsettled := settle_eq_ok_iff.1 h
  unfold settled at hsettled
  split at hsettled
  · next hnone =>
    cases hsettled
    refine ⟨passes_of_given rfl (or_false _).symm.to_iff, hnone, rfl, ?_⟩
    intro vs hvs
    rw [hnone] at hvs
    cases hvs
  · next a values hpending =>
    obtain ⟨hpasses, hnone, htrailing⟩ := passes_accept hsettled
    refine ⟨⟨?_, hpasses.checked⟩, hnone, htrailing, fun vs hvs => ?_⟩
    · rw [hpasses.knows, or_false, KnowsFormat, KnowsFormat, awaitsFormat_some hpending,
        awaitsFormat_none rfl, or_false]
      exact Iff.rfl
    · rw [hpending, Option.some_inj, Prod.mk.injEq] at hvs
      obtain ⟨rfl, rfl⟩ := hvs
      exact fun v hv => isSome_of_checkValue ((accept_eq_ok_iff.1 hsettled).2.2.2 v hv)

end Progress

open Progress

variable {l : Level} {p q : Progress} {arg : String} {args rest : List String}

/-! ### Steps of a level -/

lemma long_eq_iff {a : Argument} : a.long = "log-format" ↔ a = .logFormat := by
  cases a <;> decide

lemma long_of_option? {long : String} {a : Argument} (h : l.option? long = some a) :
    a.long = long := by
  have hlong := List.find?_some (h : l.options.find? (·.long == long) = some a)
  exact beq_iff_eq.1 hlong

lemma short?_ne {c : Char} {a : Argument} (h : l.short? c = some a) : a ≠ .logFormat := by
  unfold Level.short? at h
  split at h <;> cases h <;> decide

lemma accept_of_ok {s : Progress} {a : Argument} {values : List String} (h : (do
      (s.accept l a values).2
      return (s.accept l a values).1) = Except.ok q) : s.accept l a values = (q, .ok ()) := by
  obtain ⟨⟨⟩, hresult, heq⟩ := bind_eq_ok_iff.1 h
  cases heq
  rw [← hresult]

/-- The value of an option stands behind it in the same argument. -/
lemma passes_value {s : Progress} {a : Argument} {values : List String} (hs : p.settle l = .ok s)
    (haccept : s.accept l a values = (q, .ok ())) :
    Passes p q (a = .logFormat) ∧ q.trailing = p.trailing ∧ p.HasFormatPending := by
  obtain ⟨hsettle, -, htrailing, hformat⟩ := passes_settle hs
  obtain ⟨hpasses, -, htrailing'⟩ := passes_accept haccept
  exact ⟨(hsettle.trans hpasses).congr (false_or _).to_iff, htrailing'.trans htrailing, hformat⟩

/-- The value of an option is still to come. -/
lemma passes_await {s : Progress} {a : Argument} (hs : p.settle l = .ok s) :
    Passes p { s with pending? := some (a, []), awaiting := true } (a = .logFormat) ∧
      s.trailing = p.trailing ∧ p.HasFormatPending := by
  obtain ⟨hsettle, hnone, htrailing, hformat⟩ := passes_settle hs
  have hpending : Passes s { s with pending? := some (a, []), awaiting := true } (a = .logFormat) :=
    passes_pending rfl hnone rfl
  exact ⟨(hsettle.trans hpending).congr (false_or _).to_iff, htrailing, hformat⟩

lemma readLong_passes {long : String} {value? : Option String}
    (h : readLong l p long value? rest = .ok q) :
    Passes p q (long = "log-format") ∧ q.trailing = p.trailing ∧ p.HasFormatPending := by
  unfold readLong at h
  split at h
  · cases h
  · next a value ha =>
    rw [← long_of_option? ha, propext long_eq_iff]
    split at h
    · obtain ⟨s, hs, h⟩ := bind_eq_ok_iff.1 h
      dsimp only at h
      exact passes_value hs (accept_of_ok h)
    · cases h
  · next a ha =>
    rw [← long_of_option? ha, propext long_eq_iff]
    obtain ⟨s, hs, h⟩ := bind_eq_ok_iff.1 h
    split at h <;> cases h
    exact passes_await hs

lemma readShort_passes {c : Char} {cs : List Char} (h : readShort l p c cs = .ok q) :
    Passes p q False ∧ q.trailing = p.trailing ∧ p.HasFormatPending := by
  unfold readShort at h
  split at h
  · cases h
  · next a ha =>
    rw [← propext (iff_false_intro (short?_ne ha))]
    obtain ⟨s, hs, h⟩ := bind_eq_ok_iff.1 h
    split at h
    · cases h
    · cases h
    · cases h
      exact passes_await hs
    · dsimp only at h
      exact passes_value hs (accept_of_ok h)

lemma readPositional_passes (h : readPositional l p arg = .ok q) :
    Passes p q False ∧ q.trailing = p.trailing ∧ l = .build := by
  unfold readPositional at h
  split at h
  · split at h
    · next values hpending =>
      cases h
      refine ⟨passes_of_given rfl ?_, rfl, rfl⟩
      rw [awaitsFormat_some hpending, awaitsFormat_some rfl, or_false]
    · obtain ⟨s, hs, h⟩ := bind_eq_ok_iff.1 h
      cases h
      obtain ⟨hsettle, hnone, htrailing, -⟩ := passes_settle hs
      have hpending : Passes s { s with pending? := some (.definitions, [arg]) }
          (Argument.definitions = .logFormat) := passes_pending rfl hnone rfl
      exact ⟨(hsettle.trans hpending).congr (by decide), htrailing, rfl⟩
  · split at h <;> cases h
  · cases h

/-- The ways in which one argument is read. -/
inductive ReadsArgument (l : Level) (p : Progress) (arg : String) (rest : List String)
    (q : Progress) : Prop where
  | escaped (htrailing : p.trailing = true) (h : readPositional l p arg = .ok q)
  | dashes (htrailing : p.trailing = false) (harg : arg = "--")
      (hq : q = { p with trailing := true })
  | long (htrailing : p.trailing = false) (cs : List Char) (value? : Option String)
      (hne : cs ≠ []) (harg : arg.toList = '-' :: '-' :: cs)
      (h : readLong l p (String.ofList (cs.takeWhile (· != '='))) value? rest = .ok q)
  | short (htrailing : p.trailing = false) (c : Char) (cs : List Char) (hc : c ≠ '-')
      (harg : arg.toList = '-' :: c :: cs) (h : readShort l p c cs = .ok q)
  | value (htrailing : p.trailing = false) (a : Argument) (values : List String)
      (harg : ∀ cs, arg.toList ≠ '-' :: '-' :: cs) (hpending : p.pending? = some (a, values))
      (hq : q = { p with pending? := some (a, values ++ [arg]), awaiting := false })
  | positional (htrailing : p.trailing = false) (harg : ∀ cs, arg.toList ≠ '-' :: '-' :: cs)
      (h : readPositional l p arg = .ok q)

lemma readsArgument_of_ok (h : readArgument l p arg rest = .ok q) :
    ReadsArgument l p arg rest q := by
  unfold readArgument at h
  split at h
  · next htrailing => exact .escaped htrailing h
  · next htrailing =>
    rw [Bool.not_eq_true] at htrailing
    split at h
    · next harg =>
      cases h
      exact .dashes htrailing (String.toList_inj.1 harg) rfl
    · next cs hne harg => exact .long htrailing cs _ hne harg h
    · next c cs hne hlong harg => exact .short htrailing c cs hlong harg h
    · next hne hlong hshort =>
      have harg : ∀ cs, arg.toList ≠ '-' :: '-' :: cs := fun cs => hshort '-' cs
      split at h
      · next hpending =>
        cases h
        exact .value htrailing _ _ harg hpending rfl
      · exact .positional htrailing harg h

/-- Two dashes start an option. -/
lemma exists_of_isFormatOption (h : isFormatOption arg = true) :
    ∃ cs, arg.toList = '-' :: '-' :: cs := by
  have hprefix := List.takeWhile_prefix (· != '=') (l := arg.toList)
  rw [beq_iff_eq.1 h] at hprefix
  obtain ⟨cs, hcs⟩ := hprefix
  exact ⟨"log-format".toList ++ cs, hcs.symm⟩

lemma isFormatOption_of_long {cs : List Char} (harg : arg.toList = '-' :: '-' :: cs) :
    isFormatOption arg = true ↔ String.ofList (cs.takeWhile (· != '=')) = "log-format" := by
  have htake : ('-' :: '-' :: cs).takeWhile (· != '=') = '-' :: '-' :: cs.takeWhile (· != '=') := rfl
  have hlong : "--log-format".toList = '-' :: '-' :: "log-format".toList := rfl
  rw [isFormatOption, harg, htake, hlong, beq_iff_eq, List.cons.injEq, List.cons.injEq,
    ← String.toList_inj, String.toList_ofList (l := cs.takeWhile (· != '='))]
  exact ⟨fun h => h.2.2, fun h => ⟨rfl, rfl, h⟩⟩

/-- **One argument** makes the option known if it is the option. -/
lemma readArgument_passes (h : readArgument l p arg rest = .ok q) :
    Passes p q (p.trailing = false ∧ isFormatOption arg = true) ∧
      q.trailing = (p.trailing || arg == "--") := by
  have hdashes {cs : List Char} (hne : cs ≠ []) (harg : arg.toList = '-' :: '-' :: cs) :
      (arg == "--") = false := by
    rw [beq_eq_false_iff_ne]
    rintro rfl
    exact hne (List.cons.inj (List.cons.inj harg).2).2.symm
  have hother (harg : ∀ cs, arg.toList ≠ '-' :: '-' :: cs) :
      (arg == "--") = false ∧ isFormatOption arg = false := by
    refine ⟨beq_eq_false_iff_ne.2 ?_, Bool.eq_false_iff.2 fun h => ?_⟩
    · rintro rfl
      exact harg [] rfl
    · obtain ⟨cs, hcs⟩ := exists_of_isFormatOption h
      exact harg cs hcs
  cases readsArgument_of_ok h with
  | escaped htrailing h =>
    obtain ⟨hpasses, heq, -⟩ := readPositional_passes h
    exact ⟨hpasses.congr (by simp [htrailing]), by simp [heq, htrailing]⟩
  | dashes htrailing harg hq =>
    subst harg hq
    refine ⟨passes_of_given rfl ?_, by simp⟩
    have hnone : isFormatOption "--" = false := by decide
    simp [AwaitsFormat, hnone]
  | long htrailing cs value? hne harg h =>
    obtain ⟨hpasses, heq, -⟩ := readLong_passes h
    rw [← propext (isFormatOption_of_long harg)] at hpasses
    exact ⟨hpasses.congr (by simp [htrailing]), by rw [heq, hdashes hne harg, Bool.or_false]⟩
  | short htrailing c cs hc harg h =>
    obtain ⟨hpasses, heq, -⟩ := readShort_passes h
    obtain ⟨hdash, hnot⟩ := hother fun cs' hcs =>
      hc (List.cons.inj (List.cons.inj (harg.symm.trans hcs)).2).1
    exact ⟨hpasses.congr (by simp [hnot]), by rw [heq, hdash, Bool.or_false]⟩
  | value htrailing a values harg hpending hq =>
    subst hq
    obtain ⟨hdash, hnot⟩ := hother harg
    refine ⟨passes_of_given rfl ?_, by rw [hdash, Bool.or_false]⟩
    rw [awaitsFormat_some hpending, awaitsFormat_some rfl, hnot]
    simp
  | positional htrailing harg h =>
    obtain ⟨hpasses, heq, -⟩ := readPositional_passes h
    obtain ⟨hdash, hnot⟩ := hother harg
    exact ⟨hpasses.congr (by simp [hnot]), by rw [heq, hdash, Bool.or_false]⟩

/-! ### All arguments of a level -/

/-- The arguments that are left behind those of a level. -/
def remaining : Option (Level × List String) → List String
  | none => []
  | some (l, rest) => l.name :: rest

/-- **The arguments** that a level reads make the option known if they give it. -/
lemma readArguments_passes {sub? : Option (Level × List String)}
    (h : readArguments l p args = .ok (q, sub?)) :
    ∃ read, args = read ++ remaining sub? ∧
      Passes p q (p.trailing = false ∧ givesFormat read = true) := by
  have hnothing (p : Progress) : Passes p p (p.trailing = false ∧ givesFormat [] = true) :=
    passes_of_given rfl (by simp [givesFormat])
  induction args generalizing p with
  | nil =>
    cases h
    exact ⟨[], rfl, hnothing _⟩
  | cons arg rest ih =>
    rw [readArguments] at h
    split at h
    · next s hs =>
      cases h
      have hname : s.name = arg := by
        split at hs
        · exact ofName?_name hs
        · cases hs
      exact ⟨[], by rw [← hname]; rfl, hnothing _⟩
    · obtain ⟨p', hstep, h⟩ := bind_eq_ok_iff.1 h
      obtain ⟨hpasses, htrailing⟩ := readArgument_passes hstep
      obtain ⟨read, rfl, hread⟩ := ih h
      refine ⟨arg :: read, rfl, (hpasses.trans hread).congr ?_⟩
      have hdashes : isFormatOption "--" = false := by decide
      rw [htrailing, givesFormat_cons]
      by_cases harg : arg = "--"
      · simp [harg, hdashes]
      · simp [harg, and_or_left]

/-! ### Arguments before a subcommand -/

/-- Only the log format can be pending before a subcommand. -/
def Progress.HasOnlyFormatPending (p : Progress) : Prop :=
  ∀ a values, p.pending? = some (a, values) → a = .logFormat

lemma hasOnlyFormatPending_of_none (h : p.pending? = none) : p.HasOnlyFormatPending := by
  intro a values hpending
  rw [h] at hpending
  cases hpending

lemma readLong_root {long : String} {value? : Option String}
    (h : readLong .root p long value? rest = .ok q) : q.HasOnlyFormatPending := by
  unfold readLong at h
  split at h
  · cases h
  · split at h
    · obtain ⟨s, hs, h⟩ := bind_eq_ok_iff.1 h
      dsimp only at h
      obtain ⟨-, hnone, -⟩ := passes_settle hs
      obtain ⟨-, hpending, -⟩ := passes_accept (accept_of_ok h)
      exact hasOnlyFormatPending_of_none (hpending.trans hnone)
    · cases h
  · next a ha =>
    obtain ⟨s, hs, h⟩ := bind_eq_ok_iff.1 h
    have hmem : a ∈ Level.root.options := List.mem_of_find?_eq_some ha
    simp only [Level.options, List.mem_cons, List.not_mem_nil, or_false] at hmem
    rcases hmem with rfl | rfl | rfl
    · cases h
      exact fun a values h => (Prod.mk.inj (Option.some.inj h)).1.symm
    · cases h
    · cases h

lemma readShort_root {c : Char} {cs : List Char} : readShort .root p c cs ≠ .ok q := by
  intro h
  unfold readShort at h
  split at h
  · cases h
  · next a ha =>
    have hknown : a = .help ∨ a = .version := by
      unfold Level.short? at ha
      split at ha <;> simp_all
    obtain ⟨s, hs, h⟩ := bind_eq_ok_iff.1 h
    rcases hknown with rfl | rfl <;> cases h

/-- A value that is settled later on is not the name of a subcommand. -/
lemma readArgument_root (hp : p.HasOnlyFormatPending) (h : readArgument .root p arg rest = .ok q) :
    q.HasOnlyFormatPending ∧
      (q.HasFormatPending → p.HasFormatPending ∧ Level.ofName? arg = none) := by
  cases readsArgument_of_ok h with
  | escaped htrailing h => exact absurd (readPositional_passes h).2.2 (by decide)
  | dashes htrailing harg hq =>
    subst harg hq
    exact ⟨hp, fun hq => ⟨hq, by decide⟩⟩
  | long htrailing cs value? hne harg h =>
    exact ⟨readLong_root h, fun _ => ⟨(readLong_passes h).2.2, ofName?_eq_none (by rw [harg]; rfl)⟩⟩
  | short htrailing c cs hc harg h => exact absurd h readShort_root
  | value htrailing a values harg hpending hq =>
    -- the word joins what is pending, so it is checked in the end
    subst hq
    obtain rfl := hp a values hpending
    refine ⟨fun a' values' h => ?_, fun hq => ?_⟩
    · exact (Prod.mk.inj (Option.some.inj h)).1.symm
    · have hvalues := List.forall_mem_append.1 (hq _ rfl)
      refine ⟨fun values' h => ?_, ofName?_of_format (hvalues.2 arg (List.mem_singleton_self arg))⟩
      obtain rfl : values = values' := (Prod.mk.inj (Option.some.inj (hpending.symm.trans h))).2
      exact hvalues.1
  | positional htrailing harg h => exact absurd (readPositional_passes h).2.2 (by decide)

/-- The invariant goes from the end to the start: what is settled last shows that no word before it
was the name of a subcommand. -/
lemma readArguments_root (hp : p.HasOnlyFormatPending)
    (h : readArguments .root p args = .ok (q, some (l, rest))) (hq : q.HasFormatPending) :
    p.HasFormatPending ∧ ∃ read, args = read ++ l.name :: rest ∧
      (∀ arg ∈ read, Level.ofName? arg = none) ∧ Level.ofName? l.name = some l := by
  induction args generalizing p with
  | nil => cases h
  | cons arg args ih =>
    rw [readArguments] at h
    split at h
    · next s hs =>
      cases h
      split at hs
      · have hname := ofName?_name hs
        refine ⟨hq, [], by rw [hname]; rfl, by simp, by rw [hname]; exact hs⟩
      · cases hs
    · obtain ⟨p', hstep, h⟩ := bind_eq_ok_iff.1 h
      obtain ⟨hp', hback⟩ := readArgument_root hp hstep
      obtain ⟨hformat, read, rfl, hread, hname⟩ := ih hp' h
      obtain ⟨hp, harg⟩ := hback hformat
      exact ⟨hp, arg :: read, rfl, List.forall_mem_cons.2 ⟨harg, hread⟩, hname⟩

/-- Below the program there are no more subcommands. -/
lemma readArguments_below {sub? : Option (Level × List String)} (hl : l ≠ .root)
    (h : readArguments l p args = .ok (q, sub?)) : sub? = none := by
  induction args generalizing p with
  | nil =>
    cases h
    rfl
  | cons arg args ih =>
    rw [readArguments, decide_eq_false hl] at h
    obtain ⟨p', hstep, h⟩ := bind_eq_ok_iff.1 h
    exact ih h

/-! ### The environment -/

/-- Why a value of the environment is refused that is no format. -/
def refusal (value : String) : Complaint :=
  if value.isEmpty then .missingValue .logFormat else .invalidFormat value

lemma checkValue_logFormat (value : String) : checkValue .logFormat value =
    if (LogFormat.ofName? value).isSome then .ok () else .error (refusal value) := by
  have hempty : LogFormat.ofName? "" = none := by decide
  unfold checkValue refusal
  dsimp only
  by_cases hvalue : value.isEmpty
  · rw [if_pos hvalue, if_pos hvalue, String.isEmpty_iff.1 hvalue, hempty]
    rfl
  · rw [if_neg hvalue, if_neg hvalue]

lemma complete_none (p : Progress) : p.complete none = .ok p := by
  unfold Progress.complete
  cases p.values? .logFormat <;> rfl

/-- Where the option is given, the environment is not looked at. -/
lemma complete_of_given (h : (p.values? .logFormat).isSome) (env? : Option String) :
    p.complete env? = .ok p := by
  obtain ⟨values, hvalues⟩ := Option.isSome_iff_exists.1 h
  unfold Progress.complete
  rw [hvalues]
  rfl

/-- Where the option is not given, the environment has to hold a format. -/
lemma complete_of_missing (h : (p.values? .logFormat).isSome = false) (value : String) :
    p.complete (some value) =
      if (LogFormat.ofName? value).isSome then .ok (p.addValues .logFormat [value])
      else .error (refusal value) := by
  rw [Option.isSome_eq_false_iff, Option.isNone_iff_eq_none] at h
  unfold Progress.complete
  rw [h]
  dsimp only
  rw [checkValue_logFormat]
  split <;> rfl

lemma format?_of_missing (h : (p.values? .logFormat).isSome = false) : p.format? = none := by
  rw [Option.isSome_eq_false_iff, Option.isNone_iff_eq_none] at h
  rw [Progress.format?, h]
  rfl

lemma format?_addValues (h : (p.values? .logFormat).isSome = false) (value : String) :
    (p.addValues .logFormat [value]).format? = LogFormat.ofName? value := by
  rw [Option.isSome_eq_false_iff, Option.isNone_iff_eq_none] at h
  rw [Progress.format?, values?_addValues, h]
  rfl

/-- What the levels of a command line come to, whatever the environment is. -/
structure HasLevels (args : List String) (l : Level) (inner outer : Progress) : Prop where
  parse_eq (env? : Option String) : parse args env? = (do
    let _ ← inner.complete env?
    let outer ← outer.complete env?
    return ⟨(inner.format? <|> outer.format?).getD .text, commandOf l inner⟩)
  given_inner : givesFormat (innerArguments args) = (inner.values? .logFormat).isSome
  checked_inner : inner.IsChecked
  given_outer : givesFormat (outerArguments args) = (outer.values? .logFormat).isSome
  checked_outer : outer.IsChecked

/-- A level that has been read to its end knows the option if it has been given. -/
lemma given_of_passes {read : List String} {s : Progress}
    (hread : Passes {} p (({} : Progress).trailing = false ∧ givesFormat read = true))
    (hs : p.settle l = .ok s) : givesFormat read = (s.values? .logFormat).isSome ∧ s.IsChecked := by
  obtain ⟨hsettle, hnone, -⟩ := passes_settle hs
  obtain ⟨hknows, hchecked⟩ := hread.trans hsettle
  refine ⟨?_, hchecked (by rintro ⟨⟩)⟩
  rw [KnowsFormat, KnowsFormat, awaitsFormat_none hnone, awaitsFormat_none rfl] at hknows
  rw [Bool.eq_iff_iff, ← or_false ((s.values? .logFormat).isSome = true), hknows]
  simp [values?]

/-- The level of the subcommand is dealt with before the one outside of it. -/
lemma parse_of_subcommand (hroot : readArguments .root {} args = .ok (p, some (l, rest)))
    (hl : l ≠ .help) (env? : Option String) : parse args env? = (do
      let inner ← (← readArguments l {} rest).1.settle l
      let _ ← inner.complete env?
      let outer ← (← p.settle .root).complete env?
      return ⟨(inner.format? <|> outer.format?).getD .text, commandOf l inner⟩) := by
  unfold parse
  rw [hroot]
  cases l <;> first | rfl | exact absurd rfl hl

/-- An accepted command line has a level outside of a subcommand and one inside. -/
lemma exists_hasLevels {i : Invocation} {env? : Option String} (h : parse args env? = .ok i) :
    ∃ l inner outer, HasLevels args l inner outer := by
  have hparse := h
  unfold parse at h
  obtain ⟨⟨p, sub?⟩, hroot, h⟩ := bind_eq_ok_iff.1 h
  rcases sub? with _ | ⟨l, rest⟩
  · obtain ⟨_, -, h⟩ := bind_eq_ok_iff.1 h
    obtain ⟨_, -, h⟩ := bind_eq_ok_iff.1 h
    cases h
  have hl : l ≠ .help := by
    rintro rfl
    cases h
  have hbody := parse_of_subcommand hroot hl
  rw [hbody] at hparse
  obtain ⟨⟨q, sub?⟩, hbelow, hparse⟩ := bind_eq_ok_iff.1 hparse
  obtain ⟨inner, hinner, hparse⟩ := bind_eq_ok_iff.1 hparse
  obtain ⟨_, -, hparse⟩ := bind_eq_ok_iff.1 hparse
  obtain ⟨outer, houter, -⟩ := bind_eq_ok_iff.1 hparse
  -- where the words of the command line are
  obtain ⟨-, read, rfl, hread, hname⟩ := readArguments_root (hasOnlyFormatPending_of_none rfl) hroot
    (passes_settle houter).2.2.2
  have hl' : l ≠ .root := by
    rintro rfl
    cases hname
  obtain ⟨houterArguments, hinnerArguments⟩ := outerArguments_append rest hread hname
  obtain ⟨read', heq, hpassesOuter⟩ := readArguments_passes hroot
  obtain rfl : read = read' := List.append_cancel_right heq
  obtain ⟨rest', heq, hpassesInner⟩ := readArguments_passes hbelow
  rw [readArguments_below hl' hbelow, remaining, List.append_nil] at heq
  subst heq
  obtain ⟨hgivenOuter, hcheckedOuter⟩ := given_of_passes hpassesOuter houter
  obtain ⟨hgivenInner, hcheckedInner⟩ := given_of_passes hpassesInner hinner
  refine ⟨l, inner, outer, fun env? => ?_, ?_, hcheckedInner, ?_, hcheckedOuter⟩
  · rw [hbody, hbelow]
    dsimp only [bind, Except.bind]
    rw [hinner, houter]
  · rw [hinnerArguments, hgivenInner]
  · rw [houterArguments, hgivenOuter]

/-- What becomes of an accepted command line where the environment has a value. -/
def inEnvironment (args : List String) (i : Invocation) (value : String) :
    Except Complaint Invocation :=
  let outer := givesFormat (outerArguments args)
  let inner := givesFormat (innerArguments args)
  match LogFormat.ofName? value with
  | some f => .ok (if outer || inner then i else { i with logFormat := f })
  | none => if outer && inner then .ok i else .error (refusal value)

/-- **The option** counts more than a format of the environment. A value of the environment that is
no format is refused, unless the option is given before the subcommand and behind it. -/
theorem parse_inEnvironment {i : Invocation} (h : parse args none = .ok i) (value : String) :
    parse args (some value) = inEnvironment args i value := by
  obtain ⟨l, inner, outer, hlevels⟩ := exists_hasLevels h
  rw [hlevels.parse_eq, complete_none, complete_none] at h
  cases h
  rw [hlevels.parse_eq, inEnvironment, hlevels.given_inner, hlevels.given_outer]
  cases hinner : (inner.values? .logFormat).isSome with
  | true =>
    obtain ⟨f, hf⟩ := Option.isSome_iff_exists.1 (hlevels.checked_inner hinner)
    rw [complete_of_given hinner, hf]
    cases houter : (outer.values? .logFormat).isSome with
    | true =>
      rw [complete_of_given houter]
      cases LogFormat.ofName? value <;> rfl
    | false =>
      rw [complete_of_missing houter]
      cases LogFormat.ofName? value <;> rfl
  | false =>
    rw [complete_of_missing hinner, format?_of_missing hinner]
    cases hvalue : LogFormat.ofName? value with
    | none => rw [Bool.and_false]; rfl
    | some f =>
      cases houter : (outer.values? .logFormat).isSome with
      | true =>
        rw [complete_of_given houter]
        rfl
      | false =>
        rw [complete_of_missing houter, hvalue, format?_of_missing houter]
        change Except.ok _ = Except.ok _
        rw [format?_addValues houter, hvalue]
        rfl

/-- With the option on both sides of the subcommand, any value of the environment will do. -/
theorem parse_inEnvironment_both :
    parse ["--log-format", "text", "build", "--log-format=json", "a"] none =
        .ok ⟨.json, .build defaultGroupName none ["a"]⟩ ∧
      parse ["--log-format", "text", "build", "--log-format=json", "a"] (some "xml") =
        inEnvironment ["--log-format", "text", "build", "--log-format=json", "a"]
          ⟨.json, .build defaultGroupName none ["a"]⟩ "xml" :=
  ⟨by decide +kernel, parse_inEnvironment (by decide +kernel) "xml"⟩

/-- The option before the subcommand does not keep the environment from being refused. -/
theorem parse_environment_refused :
    ¬ ∀ (args : List String) (i : Invocation),
      givesFormat (outerArguments args) = true ∨ givesFormat (innerArguments args) = true →
        parse args none = .ok i → ∀ env? : Option String, parse args env? = .ok i := by
  intro h
  have haccepted : parse ["--log-format", "text", "build", "x"] none =
      .ok ⟨.text, .build defaultGroupName none ["x"]⟩ := by decide +kernel
  have hrefused : parse ["--log-format", "text", "build", "x"] (some "xml") =
      .error (.invalidFormat "xml") := by decide +kernel
  have hsame := h ["--log-format", "text", "build", "x"] _ (.inl (by decide)) haccepted (some "xml")
  rw [hrefused] at hsame
  cases hsame

end BurnRate.CommandLine
