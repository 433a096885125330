import BurnRate.Proofs.FormatPrecedence
import Mathlib.Data.List.TakeWhile

/-!
The options of a build may stand anywhere on its command line.

An option takes the one word behind it, and words that no option takes are definitions. So what a
line asks for depends on the values that each argument is given, and not on where they stand.
-/

namespace BurnRate.CommandLine

/-! ### Lines that ask for a build -/

/-- A text that cannot be taken for an option. -/
structure Word where
  text : String
  text_ne : text ≠ "" := by decide
  head?_ne : text.toList.head? ≠ some '-' := by decide

/-- Where the value of an option with two dashes stands. -/
inductive Spelling where
  /-- In the next argument. -/
  | apart
  /-- Behind an equals sign. -/
  | joined

/-- An option and its value as they are written. -/
def Spelling.words (option value : String) : Spelling → List String
  | apart => [option, value]
  | joined => [option ++ "=" ++ value]

def LogFormat.word : LogFormat → Word
  | text => { text := "text" }
  | json => { text := "json" }

/-- An option with its value, or a definition. -/
inductive Item where
  | name (spelling : Spelling) (value : Word)
  | output (spelling : Spelling) (path : Word)
  | shortOutput (path : Word)
  | logFormat (spelling : Spelling) (format : LogFormat)
  | definition (path : Word)

namespace Item

/-- The item as it is written. -/
def words : Item → List String
  | name s v => s.words "--name" v.text
  | output s v => s.words "--output" v.text
  | shortOutput v => ["-o", v.text]
  | logFormat s f => s.words "--log-format" f.word.text
  | definition v => [v.text]

def argument : Item → Argument
  | name _ _ => .name
  | output _ _ | shortOutput _ => .output
  | logFormat _ _ => .logFormat
  | definition _ => .definitions

def word : Item → Word
  | name _ v | output _ v | shortOutput v | definition v => v
  | logFormat _ f => f.word

end Item

/-- The values that items give to an argument, in their order. -/
def valuesOf (items : List Item) (a : Argument) : List String :=
  (items.filter (·.argument = a)).map (·.word.text)

/-- A command line that asks for a build, behind the name of the program. -/
structure Line where
  /-- The log format, where it stands before the subcommand. -/
  before? : Option (Spelling × LogFormat) := none
  items : List Item
  /-- Definitions behind two dashes. -/
  escaped? : Option (List String) := none
  escaped_ne : ∀ paths ∈ escaped?, ∀ path ∈ paths, path ≠ "" := by decide

def Line.words (l : Line) : List String :=
  l.before?.elim [] (fun (s, f) => s.words "--log-format" f.word.text)
    ++ "build" :: (l.items.flatMap Item.words ++ l.escaped?.elim [] ("--" :: ·))

/-- What is asked of a build. -/
structure Request where
  name? : Option String := none
  output? : Option String := none
  logFormat? : Option LogFormat := none
  definitions : List String := []

/-- The line asks for this, and gives no option twice. -/
structure Line.Asks (l : Line) (r : Request) : Prop where
  name : valuesOf l.items .name = r.name?.toList
  output : valuesOf l.items .output = r.output?.toList
  logFormat : (l.before?.map (·.2.word.text)).toList ++ valuesOf l.items .logFormat =
    (r.logFormat?.map (·.word.text)).toList
  definitions : valuesOf l.items .definitions ++ l.escaped?.getD [] = r.definitions

lemma valuesOf_cons (i : Item) (items : List Item) (a : Argument) :
    valuesOf (i :: items) a = valuesOf [i] a ++ valuesOf items a := by
  rw [valuesOf, valuesOf, valuesOf, ← List.map_append, ← List.filter_append]
  rfl

lemma valuesOf_singleton (i : Item) (a : Argument) :
    valuesOf [i] a = if a = i.argument then [i.word.text] else [] := by
  rw [valuesOf, List.filter_singleton]
  by_cases h : i.argument = a
  · rw [if_pos h.symm, decide_eq_true h]
    rfl
  · rw [if_neg (Ne.symm h), decide_eq_false h]
    rfl

namespace Progress

variable {l : Level} {p q r : Progress} {a b : Argument} {values : List String} {value : String}

/-! ### The values that have been read -/

/-- The values of an argument so far, pending ones included. -/
def listed (p : Progress) (a : Argument) : List String :=
  (p.values? a).getD [] ++ (p.pending?.elim [] fun (b, values) => if a = b then values else [])

/-- No option waits for its value, and what is pending will be accepted. -/
structure Ready (p : Progress) : Prop where
  awaiting : p.awaiting = false
  values?_ne : ∀ a, p.values? a ≠ some []
  pending : ∀ a values, p.pending? = some (a, values) → values ≠ [] ∧
    (a ≠ .definitions → p.values? a = none) ∧ ∀ v ∈ values, checkValue a v = .ok ()

/-- From one state to a later one, where arguments have been given further values. -/
structure Takes (p q : Progress) (given : Argument → List String) : Prop where
  ready : q.Ready
  trailing : q.trailing = p.trailing
  listed : ∀ a, q.listed a = p.listed a ++ given a

lemma Takes.trans {g h : Argument → List String} (hpq : Takes p q g) (hqr : Takes q r h) :
    Takes p r fun a => g a ++ h a where
  ready := hqr.ready
  trailing := hqr.trailing.trans hpq.trailing
  listed a := by rw [hqr.listed, hpq.listed, List.append_assoc]

lemma ready_empty : ({} : Progress).Ready where
  awaiting := rfl
  values?_ne _ := by rintro ⟨⟩
  pending _ _ := by rintro ⟨⟩

lemma listed_of_none (h : p.pending? = none) (a : Argument) :
    p.listed a = (p.values? a).getD [] := by
  rw [listed, h]
  exact List.append_nil _

lemma listed_of_some (h : p.pending? = some (b, values)) (a : Argument) :
    p.listed a = (p.values? a).getD [] ++ if a = b then values else [] := by
  rw [listed, h]
  rfl

/-- What has no values so far has not been given. -/
lemma Ready.values?_eq_none (hp : p.Ready) (h : p.listed a = []) : p.values? a = none := by
  cases hvalues : p.values? a with
  | none => rfl
  | some vs =>
    rw [listed, hvalues] at h
    obtain rfl : vs = [] := (List.append_eq_nil_iff.1 h).1
    exact absurd hvalues (hp.values?_ne a)

lemma Ready.addValues (hp : p.Ready) (hpending : p.pending? = none) (hne : values ≠ []) :
    Takes p (p.addValues a values) fun b => if b = a then values else [] where
  ready := by
    refine ⟨by rw [awaiting_addValues, hp.awaiting], fun b => ?_, fun b vs h => ?_⟩
    · rw [values?_addValues]
      split
      · simp [hne]
      · exact hp.values?_ne b
    · rw [pending?_addValues, hpending] at h
      cases h
  trailing := trailing_addValues p a values
  listed b := by
    rw [listed_of_none (by rw [pending?_addValues, hpending]), listed_of_none hpending,
      values?_addValues]
    split
    · next h => rw [h]; rfl
    · rw [List.append_nil]

/-- What is pending can be dealt with. -/
lemma Ready.settle (hp : p.Ready) (l : Level) :
    ∃ q, p.settle l = .ok q ∧ q.pending? = none ∧ Takes p q fun _ => [] := by
  cases hpending : p.pending? with
  | none =>
    refine ⟨p, settle_eq_ok_iff.2 ?_, hpending, hp, rfl, fun a => (List.append_nil _).symm⟩
    rw [settled, hpending]
  | some e =>
    obtain ⟨a, values⟩ := e
    obtain ⟨hne, hnew, hchecked⟩ := hp.pending a values hpending
    have hcleared : Ready { p with pending? := none, awaiting := false } :=
      ⟨rfl, hp.values?_ne, fun _ _ => by rintro ⟨⟩⟩
    obtain ⟨hready, htrailing, hlisted⟩ := hcleared.addValues (a := a) rfl hne
    refine ⟨_, settle_eq_ok_iff.2 ?_, pending?_addValues _ _ _, hready, htrailing, fun b => ?_⟩
    · rw [settled, hpending]
      exact accept_eq_ok_iff.2 ⟨rfl, hne, hnew, hchecked⟩
    · rw [hlisted, listed_of_some hpending, List.append_nil, listed_of_none rfl]
      rfl

/-- An option without values is not among those that have been dealt with. -/
lemma Ready.settle_new (hp : p.Ready) (l : Level) (hnew : p.listed a = []) :
    ∃ q, p.settle l = .ok q ∧ q.pending? = none ∧ q.values? a = none ∧ Takes p q fun _ => [] := by
  obtain ⟨q, hsettle, hnone, hq⟩ := hp.settle l
  have hlisted : q.listed a = [] := by rw [hq.listed, hnew, List.append_nil]
  exact ⟨q, hsettle, hnone, hq.ready.values?_eq_none hlisted, hq⟩

/-- An option becomes pending with its value. -/
lemma Ready.pend (hp : p.Ready) (hpending : p.pending? = none)
    (hchecked : checkValue a value = .ok ())
    (hnew : a ≠ .definitions → p.values? a = none) :
    Takes p { p with pending? := some (a, [value]) } fun b => if b = a then [value] else [] where
  ready := by
    refine ⟨hp.awaiting, hp.values?_ne, fun b vs h => ?_⟩
    obtain ⟨rfl, rfl⟩ := Prod.mk.inj (Option.some.inj h)
    exact ⟨List.cons_ne_nil _ _, hnew, by simpa using hchecked⟩
  trailing := rfl
  listed b := by
    rw [listed_of_some rfl, listed_of_none hpending]
    rfl

end Progress

open Progress

variable {l : Level} {p q : Progress} {a : Argument} {value : String} {rest : List String}

/-! ### One argument -/

/-- The argument is read on its own, not as a subcommand. -/
lemma readArguments_cons {arg : String}
    (hname : l = .root → p.awaiting = false → Level.ofName? arg = none)
    (h : readArgument l p arg rest = .ok q) :
    readArguments l p (arg :: rest) = readArguments l q rest := by
  have hsub : (if l = .root && !p.trailing && !p.awaiting then Level.ofName? arg else none) =
      none := by
    split
    · next h =>
      simp only [Bool.and_eq_true, decide_eq_true_eq, Bool.not_eq_true'] at h
      exact hname h.1.1 h.2
    · rfl
  rw [readArguments, hsub, h]
  rfl

/-- An argument with two dashes is cut at its first equals sign. -/
lemma readArgument_dashes {s : String} (htrailing : p.trailing = false) (hne : s ≠ "") :
    readArgument l p ("--" ++ s) rest =
      readLong l p (String.ofList (s.toList.takeWhile (· != '=')))
        (match s.toList.dropWhile (· != '=') with
          | [] => none
          | _ :: value => some (String.ofList value)) rest := by
  obtain ⟨c, cs, hs⟩ := List.exists_cons_of_ne_nil (mt String.toList_eq_nil_iff.1 hne)
  have htext : ("--" ++ s).toList = '-' :: '-' :: c :: cs := by
    rw [String.toList_append, hs]
    rfl
  rw [readArgument, htrailing, htext, hs]
  rfl

lemma ne_equals_of_mem_long {c : Char} (h : c ∈ a.long.toList) : (c != '=') = true := by
  have hmem : '=' ∉ a.long.toList := by cases a <;> decide
  rw [bne_iff_ne]
  rintro rfl
  exact hmem h

lemma readArgument_apart (htrailing : p.trailing = false) (ha : a.long ≠ "") :
    readArgument l p ("--" ++ a.long) rest = readLong l p a.long none rest := by
  have hlong : ∀ c ∈ a.long.toList, (c != '=') = true := fun _ => ne_equals_of_mem_long
  rw [readArgument_dashes htrailing ha, List.takeWhile_eq_self_iff.2 hlong,
    List.dropWhile_eq_nil_iff.2 hlong, String.ofList_toList]

lemma readArgument_joined (htrailing : p.trailing = false) (a : Argument) (value : String) :
    readArgument l p ("--" ++ a.long ++ "=" ++ value) rest =
      readLong l p a.long (some value) rest := by
  have hlong : ∀ c ∈ a.long.toList, (c != '=') = true := fun _ => ne_equals_of_mem_long
  have htext : (a.long ++ ("=" ++ value)).toList = a.long.toList ++ '=' :: value.toList := by
    simp
  have hne : a.long ++ ("=" ++ value) ≠ "" := by
    intro h
    rw [h] at htext
    simp at htext
  rw [String.append_assoc, String.append_assoc, readArgument_dashes htrailing hne, htext,
    List.takeWhile_append_of_pos hlong, List.dropWhile_append_of_pos hlong, List.takeWhile_cons,
    List.dropWhile_cons]
  simp

/-- A word is no option. -/
lemma readArgument_word (w : Word) (htrailing : p.trailing = false) :
    readArgument l p w.text rest =
      match p.awaiting, p.pending? with
      | true, some (a, values) =>
        .ok { p with pending? := some (a, values ++ [w.text]), awaiting := false }
      | _, _ => readPositional l p w.text := by
  have hhead (cs : List Char) : w.text.toList ≠ '-' :: cs := by
    intro h
    exact w.head?_ne (by rw [h]; rfl)
  rw [readArgument, htrailing]
  simp only [Bool.false_eq_true, if_false]
  split
  · next h => exact absurd h (hhead _)
  · next h => exact absurd h (hhead _)
  · next h => exact absurd h (hhead _)
  · rfl

/-- The word that an option waits for. -/
lemma readArguments_awaited (w : Word) (hp : p.Ready) (htrailing : p.trailing = false) :
    readArguments l { p with pending? := some (a, []), awaiting := true } (w.text :: rest) =
      readArguments l { p with pending? := some (a, [w.text]) } rest := by
  refine readArguments_cons (fun _ h => by cases h) ?_
  rw [readArgument_word w (by exact htrailing), hp.awaiting]
  rfl

/-! ### One item -/

/-- The level has the option, and it takes a value. -/
def Level.HasOption (l : Level) (a : Argument) : Prop :=
  l.option? a.long = some a ∧ a.hasValue = true

lemma readLong_apart (ha : l.HasOption a) (hs : p.settle l = .ok q) :
    readLong l p a.long none rest = .ok { q with pending? := some (a, []), awaiting := true } := by
  unfold readLong
  rw [ha.1, hs]
  cases a <;> first | rfl | exact absurd ha.2 (by decide)

lemma readLong_joined (ha : l.HasOption a) (hs : p.settle l = .ok q) (hnew : q.values? a = none)
    (hchecked : checkValue a value = .ok ()) :
    readLong l p a.long (some value) rest = .ok (q.addValues a [value]) := by
  have haccept : q.accept l a [value] = (q.addValues a [value], .ok ()) :=
    accept_eq_ok_iff.2 ⟨rfl, List.cons_ne_nil _ _, fun _ => hnew, by simpa using hchecked⟩
  unfold readLong
  rw [ha.1, hs]
  dsimp only [bind, Except.bind]
  rw [if_pos ha.2, haccept]
  rfl

lemma Level.HasOption.long_ne (ha : l.HasOption a) : a.long ≠ "" := by
  obtain ⟨ha, hvalue⟩ := ha
  cases a
  case definitions => cases l <;> exact absurd ha (by decide)
  all_goals decide

/-- An option that has not been given so far takes the value behind it. -/
lemma readArguments_spelled {option : String} (rest : List String) (s : Spelling) (w : Word)
    (hoption : option = "--" ++ a.long) (ha : l.HasOption a) (hp : p.Ready)
    (htrailing : p.trailing = false) (hnew : p.listed a = [])
    (hchecked : checkValue a w.text = .ok ()) :
    ∃ q, readArguments l p (s.words option w.text ++ rest) = readArguments l q rest ∧
      Takes p q fun b => if b = a then [w.text] else [] := by
  subst hoption
  obtain ⟨q, hsettle, hnone, hmissing, hq⟩ := hp.settle_new l hnew
  have hname (t : String) : l = .root → p.awaiting = false → Level.ofName? ("--" ++ t) = none :=
    fun _ _ => ofName?_eq_none (by rw [String.toList_append]; rfl)
  cases s with
  | apart =>
    refine ⟨_, ?_, hq.trans (hq.ready.pend hnone hchecked fun _ => hmissing)⟩
    rw [← readArguments_awaited w hq.ready (hq.trailing.trans htrailing)]
    refine readArguments_cons (hname _) ?_
    rw [readArgument_apart htrailing ha.long_ne, readLong_apart ha hsettle]
  | joined =>
    refine ⟨_, ?_, hq.trans (hq.ready.addValues hnone (List.cons_ne_nil _ _))⟩
    refine readArguments_cons (by rw [String.append_assoc, String.append_assoc]; exact hname _) ?_
    rw [readArgument_joined htrailing, readLong_joined ha hsettle hmissing hchecked]

lemma readArguments_short (w : Word) (hp : p.Ready) (htrailing : p.trailing = false)
    (hnew : p.listed .output = []) (hchecked : checkValue .output w.text = .ok ()) :
    ∃ q, readArguments .build p ("-o" :: w.text :: rest) = readArguments .build q rest ∧
      Takes p q fun b => if b = .output then [w.text] else [] := by
  obtain ⟨q, hsettle, hnone, hmissing, hq⟩ := hp.settle_new .build hnew
  refine ⟨_, ?_, hq.trans (hq.ready.pend hnone hchecked fun _ => hmissing)⟩
  rw [← readArguments_awaited w hq.ready (hq.trailing.trans htrailing)]
  refine readArguments_cons (fun h => by cases h) ?_
  have htext : "-o".toList = ['-', 'o'] := rfl
  rw [readArgument, htrailing, htext]
  change readShort .build p 'o' [] = _
  unfold readShort
  rw [hsettle]
  rfl

/-- A definition joins those in front of it. -/
lemma readPositional_takes (hp : p.Ready) (hne : value ≠ "") :
    ∃ q, readPositional .build p value = .ok q ∧
      Takes p q fun b => if b = .definitions then [value] else [] := by
  have hchecked : checkValue .definitions value = .ok () := by
    rw [checkValue, if_neg (by simpa using hne)]
  unfold readPositional
  dsimp only
  split
  · next values hpending =>
    obtain ⟨-, -, hvalues⟩ := hp.pending _ _ hpending
    refine ⟨_, rfl, ⟨hp.awaiting, hp.values?_ne, fun b vs h => ?_⟩, rfl, fun b => ?_⟩
    · obtain ⟨rfl, rfl⟩ := Prod.mk.inj (Option.some.inj h)
      refine ⟨by simp, fun h => absurd rfl h, ?_⟩
      exact List.forall_mem_append.2 ⟨hvalues, by simpa using hchecked⟩
    · rw [listed_of_some rfl, listed_of_some hpending]
      split
      · rw [List.append_assoc]
        rfl
      · rw [List.append_nil, List.append_nil, List.append_nil]
        rfl
  · obtain ⟨q, hsettle, hnone, hq⟩ := hp.settle .build
    exact ⟨_, by rw [hsettle]; rfl, hq.trans (hq.ready.pend hnone hchecked fun h => absurd rfl h)⟩

lemma Item.checkValue_eq (i : Item) : checkValue i.argument i.word.text = .ok () := by
  have hpath (a : Argument) (w : Word) (ha : a = .output ∨ a = .definitions) :
      checkValue a w.text = .ok () := by
    rcases ha with rfl | rfl <;> rw [checkValue, if_neg (by simpa using w.text_ne)]
  cases i with
  | name => rfl
  | output _ v => exact hpath _ v (.inl rfl)
  | shortOutput v => exact hpath _ v (.inl rfl)
  | logFormat _ f => cases f <;> rfl
  | definition v => exact hpath _ v (.inr rfl)

/-- **One item** gives its argument one more value, wherever it stands. -/
lemma readArguments_item (i : Item) (hp : p.Ready) (htrailing : p.trailing = false)
    (hnew : i.argument ≠ .definitions → p.listed i.argument = []) :
    ∃ q, readArguments .build p (i.words ++ rest) = readArguments .build q rest ∧
      Takes p q (valuesOf [i]) := by
  have hchecked := i.checkValue_eq
  rw [funext (valuesOf_singleton i)]
  cases i with
  | name s v =>
    exact readArguments_spelled (a := .name) _ s v rfl ⟨by decide, rfl⟩ hp htrailing (hnew nofun)
      hchecked
  | output s v =>
    exact readArguments_spelled (a := .output) _ s v rfl ⟨by decide, rfl⟩ hp htrailing (hnew nofun)
      hchecked
  | shortOutput v => exact readArguments_short v hp htrailing (hnew nofun) hchecked
  | logFormat s f =>
    exact readArguments_spelled (a := .logFormat) _ s f.word rfl ⟨by decide, rfl⟩ hp htrailing
      (hnew nofun) hchecked
  | definition v =>
    obtain ⟨q, hq, htakes⟩ := readPositional_takes hp v.text_ne
    refine ⟨q, readArguments_cons (fun h => by cases h) ?_, htakes⟩
    rw [readArgument_word v htrailing, hp.awaiting]
    exact hq

/-! ### A whole line -/

lemma readArguments_items {items : List Item} (rest : List String) (hp : p.Ready)
    (htrailing : p.trailing = false)
    (honce : ∀ a, a ≠ .definitions → (p.listed a ++ valuesOf items a).length ≤ 1) :
    ∃ q, readArguments .build p (items.flatMap Item.words ++ rest) = readArguments .build q rest ∧
      Takes p q (valuesOf items) := by
  -- the values to come are counted with those that are listed, so that no option is given twice
  induction items generalizing p with
  | nil => exact ⟨p, rfl, hp, rfl, fun a => (List.append_nil _).symm⟩
  | cons i items ih =>
    have hnew : i.argument ≠ .definitions → p.listed i.argument = [] := by
      intro hi
      have hle := honce i.argument hi
      rw [valuesOf_cons, valuesOf_singleton, if_pos rfl, List.length_append, List.length_append,
        List.length_singleton] at hle
      exact List.eq_nil_of_length_eq_zero (by omega)
    rw [List.flatMap_cons, List.append_assoc]
    obtain ⟨q, hread, hpq⟩ := readArguments_item i hp htrailing hnew
    obtain ⟨r, hread', hqr⟩ := ih hpq.ready (hpq.trailing.trans htrailing) fun a ha => by
      rw [hpq.listed, List.append_assoc, ← valuesOf_cons]
      exact honce a ha
    refine ⟨r, hread.trans hread', ?_⟩
    rw [funext (valuesOf_cons i items)]
    exact hpq.trans hqr

lemma readArguments_escaped {paths : List String} (hp : p.Ready) (htrailing : p.trailing = true)
    (hne : ∀ path ∈ paths, path ≠ "") :
    ∃ q, readArguments .build p paths = .ok (q, none) ∧
      Takes p q fun a => if a = .definitions then paths else [] := by
  induction paths generalizing p with
  | nil => exact ⟨p, rfl, hp, rfl, fun a => by simp⟩
  | cons path paths ih =>
    obtain ⟨hpath, hpaths⟩ := List.forall_mem_cons.1 hne
    obtain ⟨q, hread, hpq⟩ := readPositional_takes hp hpath
    obtain ⟨r, hread', hqr⟩ := ih hpq.ready (hpq.trailing.trans htrailing) hpaths
    refine ⟨r, ?_, hqr.ready, hqr.trailing.trans hpq.trailing, fun a => ?_⟩
    · rw [readArguments_cons (fun h => by cases h) (q := q) ?_, hread']
      rw [readArgument, htrailing]
      exact hread
    · rw [hqr.listed, hpq.listed, List.append_assoc]
      split <;> rfl

lemma valuesOf_eq_nil (items : List Item) (ha : a = .help ∨ a = .version) :
    valuesOf items a = [] := by
  rw [valuesOf, List.map_eq_nil_iff, List.filter_eq_nil_iff]
  intro i _
  rcases ha with rfl | rfl <;> cases i <;> simp [Item.argument]

/-- No option is given twice. -/
lemma Line.Asks.length_le {l : Line} {r : Request} (h : l.Asks r) (ha : a ≠ .definitions) :
    (valuesOf l.items a).length ≤ 1 := by
  cases a with
  | logFormat =>
    have hlength := congrArg List.length h.logFormat
    have hle := Option.length_toList_le (o := r.logFormat?.map (·.word.text))
    rw [List.length_append] at hlength
    omega
  | name => exact h.name ▸ Option.length_toList_le
  | output => exact h.output ▸ Option.length_toList_le
  | help => simp [valuesOf_eq_nil]
  | version => simp [valuesOf_eq_nil]
  | definitions => exact absurd rfl ha

/-- The level of the subcommand. -/
lemma readArguments_inner {l : Line} {r : Request} (h : l.Asks r) :
    ∃ q, readArguments .build {}
        (l.items.flatMap Item.words ++ l.escaped?.elim [] ("--" :: ·)) = .ok (q, none) ∧
      q.Ready ∧ ∀ a, q.listed a =
        valuesOf l.items a ++ if a = .definitions then l.escaped?.getD [] else [] := by
  obtain ⟨p, hread, hp⟩ := readArguments_items (l.escaped?.elim [] ("--" :: ·)) ready_empty rfl
    fun _ => h.length_le
  rw [hread]
  cases hescaped : l.escaped? with
  | none =>
    refine ⟨p, rfl, hp.ready, fun a => (hp.listed a).trans ?_⟩
    rw [Option.getD_none, ite_self, List.append_nil]
    rfl
  | some paths =>
    have hready : Ready { p with trailing := true } :=
      ⟨hp.ready.awaiting, hp.ready.values?_ne, hp.ready.pending⟩
    obtain ⟨q, hread', hq⟩ := readArguments_escaped hready rfl (l.escaped_ne paths hescaped)
    refine ⟨q, ?_, hq.ready, fun a => (hq.listed a).trans ?_⟩
    · rw [← hread']
      refine readArguments_cons (fun h => by cases h) ?_
      have htext : "--".toList = ['-', '-'] := rfl
      rw [readArgument, hp.trailing, htext]
      rfl
    · exact congrArg (· ++ _) (hp.listed a)

lemma readArguments_build (hp : p.Ready) (htrailing : p.trailing = false) :
    readArguments .root p ("build" :: rest) = .ok (p, some (.build, rest)) := by
  have hname : Level.ofName? "build" = some .build := by decide
  rw [readArguments, htrailing, hp.awaiting, hname]
  rfl

/-- The level before the subcommand. -/
lemma readArguments_outer (before? : Option (Spelling × LogFormat)) (rest : List String) :
    ∃ p, readArguments .root {} (before?.elim [] (fun (s, f) => s.words "--log-format" f.word.text)
        ++ "build" :: rest) = .ok (p, some (.build, rest)) ∧
      p.Ready ∧ p.listed .logFormat = (before?.map (·.2.word.text)).toList := by
  cases before? with
  | none => exact ⟨{}, readArguments_build ready_empty rfl, ready_empty, rfl⟩
  | some e =>
    obtain ⟨s, f⟩ := e
    obtain ⟨p, hread, hp⟩ := readArguments_spelled (l := .root) (a := .logFormat)
      ("build" :: rest) s f.word rfl ⟨by decide, rfl⟩ ready_empty rfl rfl (by cases f <;> rfl)
    exact ⟨p, hread.trans (readArguments_build hp.ready hp.trailing), hp.ready, hp.listed _⟩

/-! ### What a line comes to -/

lemma value?_eq (hnone : p.pending? = none) (a : Argument) : p.value? a = (p.listed a).head? := by
  rw [Progress.value?, listed_of_none hnone]
  cases p.values? a <;> rfl

lemma format?_eq (hnone : p.pending? = none) :
    p.format? = (p.listed .logFormat).head?.bind LogFormat.ofName? := by
  rw [Progress.format?, listed_of_none hnone]
  cases p.values? .logFormat <;> rfl

lemma LogFormat.ofName?_word (f : LogFormat) : LogFormat.ofName? f.word.text = some f := by
  cases f <;> decide

/-- The format that is given once, behind the subcommand or before it. -/
lemma format?_of_once {inner : List String} {outer? : Option String} {f? : Option LogFormat}
    (h : outer?.toList ++ inner = (f?.map (·.word.text)).toList) :
    (inner.head?.bind LogFormat.ofName? <|> outer?.toList.head?.bind LogFormat.ofName?) = f? := by
  cases f? with
  | none =>
    obtain ⟨houter, rfl⟩ := List.append_eq_nil_iff.1 h
    rw [houter]
    rfl
  | some f =>
    rcases List.append_eq_singleton_iff.1 h with ⟨houter, rfl⟩ | ⟨houter, rfl⟩
    · rw [houter]
      simp [LogFormat.ofName?_word]
    · rw [houter]
      simp [LogFormat.ofName?_word]

/-- **The placement of options** does not matter: every line that asks for a build is read as that
build, with the definitions in their order. -/
theorem parse_anyPlacement {l : Line} {r : Request} (h : l.Asks r) :
    parse l.words none = .ok ⟨r.logFormat?.getD .text,
      .build (r.name?.getD defaultGroupName) r.output? r.definitions⟩ := by
  obtain ⟨p, houter, hp, houterListed⟩ := readArguments_outer l.before?
    (l.items.flatMap Item.words ++ l.escaped?.elim [] ("--" :: ·))
  obtain ⟨q, hinner, hq, hinnerListed⟩ := readArguments_inner h
  obtain ⟨outer, hsettleOuter, hnoneOuter, htakesOuter⟩ := hp.settle .root
  obtain ⟨inner, hsettleInner, hnoneInner, htakesInner⟩ := hq.settle .build
  have hlisted (a : Argument) : inner.listed a =
      valuesOf l.items a ++ if a = .definitions then l.escaped?.getD [] else [] := by
    rw [htakesInner.listed, hinnerListed, List.append_nil]
  have hcommand : commandOf .build inner =
      .build (r.name?.getD defaultGroupName) r.output? r.definitions := by
    rw [commandOf, value?_eq hnoneInner, value?_eq hnoneInner, ← listed_of_none hnoneInner, hlisted,
      hlisted, hlisted, h.name, h.output, if_pos rfl, h.definitions]
    simp
  have hformat : (inner.format? <|> outer.format?) = r.logFormat? := by
    rw [format?_eq hnoneInner, format?_eq hnoneOuter, hlisted, htakesOuter.listed, houterListed,
      if_neg (by decide), List.append_nil, List.append_nil]
    exact format?_of_once h.logFormat
  rw [Line.words, parse_of_subcommand houter (by decide), hinner]
  dsimp only [bind, Except.bind]
  rw [hsettleInner, hsettleOuter]
  dsimp only
  rw [complete_none, complete_none, hcommand]
  dsimp only
  rw [hformat]
  rfl

/-- A line whose definitions and values are called like subcommands and options. -/
def crowdedLine : Line where
  before? := some (.apart, .json)
  items := [.definition { text := "help" }, .shortOutput { text := "build" },
    .definition { text := "a=b" }, .name .joined { text := "=name" }]
  escaped? := some ["--name", "-"]

/-- Each value is found. -/
theorem parse_crowdedLine :
    crowdedLine.Asks ⟨some "=name", some "build", some .json, ["help", "a=b", "--name", "-"]⟩ ∧
      parse ["--log-format", "json", "build", "help", "-o", "build", "a=b", "--name==name", "--",
          "--name", "-"] none =
        .ok ⟨.json, .build "=name" (some "build") ["help", "a=b", "--name", "-"]⟩ := by
  have hasks : crowdedLine.Asks
      ⟨some "=name", some "build", some .json, ["help", "a=b", "--name", "-"]⟩ :=
    ⟨by decide, by decide, by decide, by decide⟩
  exact ⟨hasks, parse_anyPlacement hasks⟩

end BurnRate.CommandLine
