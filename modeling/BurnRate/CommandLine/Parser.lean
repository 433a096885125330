import BurnRate.CommandLine.Complaint
import BurnRate.CommandLine.Similarity

/-!
Reading a command line.

An option whose value is still to come is pending, and is checked when the next argument starts or
when its level ends. A level inside is read before what is pending outside is checked. For what the
command line does not give, the environment counts.
-/

namespace BurnRate.CommandLine

/-- What has been read on one level. -/
structure Progress where
  /-- Arguments with their values, in the order in which they were first given. -/
  given : List (Argument × List String) := []
  pending? : Option (Argument × List String) := none
  /-- The pending option still needs a value. -/
  awaiting : Bool := false
  /-- Two dashes have ended the options. -/
  trailing : Bool := false

/-- Checks one value. -/
def checkValue (a : Argument) (value : String) : Except Complaint Unit :=
  match a with
  | .logFormat =>
    if value.isEmpty then .error (.missingValue a)
    else if (LogFormat.ofName? value).isSome then .ok ()
    else .error (.invalidFormat value)
  | .output | .definitions => if value.isEmpty then .error (.missingValue a) else .ok ()
  | _ => .ok ()

namespace Progress

def values? (p : Progress) (a : Argument) : Option (List String) := p.given.lookup a

def used (p : Progress) : List Argument := p.given.map (·.1)

/-- Adds values to an argument that may be given before. -/
def addValues (p : Progress) (a : Argument) (values : List String) : Progress :=
  if (p.values? a).isSome then
    { p with given := p.given.map fun (b, vs) => if b = a then (b, vs ++ values) else (b, vs) }
  else { p with given := p.given ++ [(a, values)] }

/-- Takes an argument with its values. An option is given once; a refused value still counts as
given, a repeated option no longer. -/
def accept (p : Progress) (l : Level) (a : Argument) (values : List String) :
    Progress × Except Complaint Unit :=
  if values.isEmpty then (p, .error (.missingValue a))
  else if a ≠ .definitions && (p.values? a).isSome then
    ({ p with given := p.given.filter (·.1 != a) }, .error (.repeated l a))
  else (p.addValues a values, values.forM (checkValue a))

/-- Deals with what is pending; tells the state even if that is refused. -/
def settled (p : Progress) (l : Level) : Progress × Except Complaint Unit :=
  match p.pending? with
  | none => (p, .ok ())
  | some (a, values) => { p with pending? := none, awaiting := false }.accept l a values

/-- Deals with what is pending. -/
def settle (p : Progress) (l : Level) : Except Complaint Progress := do
  let (p, result) := p.settled l
  result
  return p

end Progress

/-- The complaint about an unknown argument with two dashes; `rest` are the arguments behind it. -/
def unknownLong (l : Level) (p : Progress) (long : String) (rest : List String) : Complaint :=
  let best? (l : Level) : Option Argument :=
    ((similar long (l.options.map (·.long))).getLast?).bind l.option?
  let used := (p.settled l).1.used
  match best? l with
  | some a =>
    let used := if used.contains a then used else used ++ [a]
    .unknownArgument l ("--" ++ long) (some (.similar a)) used
  | none =>
    let below : List (Nat × Level × Argument) :=
      if l = .root then
        Level.subcommands.filterMap fun s => do
          return (← rest.findIdx? (· == s.name), s, ← best? s)
      else []
    let first? := below.foldl (fun (first? : Option (Nat × Level × Argument)) b =>
      match first? with
      | none => some b
      | some f => if b.1 < f.1 then some b else some f) none
    let advice? := match first? with
      | some (_, s, a) => some (Advice.ofSubcommand s a)
      | none => if l.hasPositionals then some .asValue else none
    .unknownArgument l ("--" ++ long) advice? used

/-- Reads an argument that starts with two dashes and has more behind them. -/
def readLong (l : Level) (p : Progress) (long : String) (value? : Option String)
    (rest : List String) : Except Complaint Progress := do
  match l.option? long, value? with
  | none, _ => throw (unknownLong l p long rest)
  | some a, some value =>
    if a.hasValue then
      let p ← p.settle l
      let (p, result) := p.accept l a [value]
      result
      return p
    else throw (.excessValue l a value (p.used ++ [a]))
  | some a, none =>
    let p ← p.settle l
    match a with
    | .help => throw (.help l true)
    | .version => throw .version
    | a => return { p with pending? := some (a, []), awaiting := true }

/-- Reads an argument that starts with one dash and has more behind it. -/
def readShort (l : Level) (p : Progress) (c : Char) (cs : List Char) :
    Except Complaint Progress := do
  match l.short? c with
  | none =>
    let advice? := if l.hasPositionals then some Advice.asValue else none
    throw (.unknownArgument l (String.ofList ['-', c]) advice? [])
  | some a =>
    let p ← p.settle l
    match a, cs with
    | .help, _ => throw (.help l false)
    | .version, _ => throw .version
    | a, [] => return { p with pending? := some (a, []), awaiting := true }
    | a, cs =>
      let value := match cs with
        | '=' :: cs => cs
        | cs => cs
      let (p, result) := p.accept l a [String.ofList value]
      result
      return p

/-- Reads an argument that is no option. -/
def readPositional (l : Level) (p : Progress) (arg : String) : Except Complaint Progress := do
  match l with
  | .build =>
    match p.pending? with
    | some (.definitions, values) =>
      return { p with pending? := some (.definitions, values ++ [arg]) }
    | _ =>
      let p ← p.settle l
      return { p with pending? := some (.definitions, [arg]) }
  | .root =>
    if p.trailing && (Level.ofName? arg).isSome then throw (.escapedCommand arg)
    else throw (.unknownCommand l arg (similar arg (Level.subcommands.map (·.name))))
  | l => throw (.unknownArgument l arg none [])

/-- Reads one argument, which is no subcommand; `rest` are the arguments behind it. -/
def readArgument (l : Level) (p : Progress) (arg : String) (rest : List String) :
    Except Complaint Progress := do
  if p.trailing then readPositional l p arg
  else
    match arg.toList with
    | ['-', '-'] => return { p with trailing := true }
    | '-' :: '-' :: cs =>
      let long := cs.takeWhile (· != '=')
      let value? := match cs.dropWhile (· != '=') with
        | [] => none
        | _ :: value => some (String.ofList value)
      readLong l p (String.ofList long) value? rest
    | '-' :: c :: cs => readShort l p c cs
    | _ =>
      match p.awaiting, p.pending? with
      | true, some (a, values) =>
        return { p with pending? := some (a, values ++ [arg]), awaiting := false }
      | _, _ => readPositional l p arg

/-- Reads the arguments of a level, up to a subcommand. Answers too what follows that. -/
def readArguments (l : Level) (p : Progress) :
    List String → Except Complaint (Progress × Option (Level × List String))
  | [] => .ok (p, none)
  | arg :: rest =>
    match if l = .root && !p.trailing && !p.awaiting then Level.ofName? arg else none with
    | some s => .ok (p, some (s, rest))
    | none => do readArguments l (← readArgument l p arg rest) rest

/-- Takes the log format from the environment where it is not given. -/
def Progress.complete (p : Progress) (env? : Option String) : Except Complaint Progress := do
  match p.values? .logFormat, env? with
  | none, some value =>
    checkValue .logFormat value
    return p.addValues .logFormat [value]
  | _, _ => return p

/-- What the subcommand `help` is asked about. -/
def helpOn (l : Level) : List String → Complaint
  | [] => .help l true
  | name :: names =>
    match if l = .root then Level.ofName? name else none with
    | some s => helpOn s names
    | none => .unknownCommand l name []

/-- The log format that is given on a command line. -/
def Progress.format? (p : Progress) : Option LogFormat :=
  (p.values? .logFormat).bind fun vs => vs.head?.bind LogFormat.ofName?

/-- The first value of an option. -/
def Progress.value? (p : Progress) (a : Argument) : Option String :=
  (p.values? a).bind (·.head?)

/-- What a level was asked to do. -/
def commandOf (l : Level) (p : Progress) : Command :=
  match l with
  | .build =>
    .build ((p.value? .name).getD defaultGroupName) (p.value? .output)
      ((p.values? .definitions).getD [])
  | _ => .listTemplates

/-- Reads the arguments behind the program's name. `env?` is the log format of the environment. An
option inside of a subcommand counts more than one before it. -/
def parse (args : List String) (env? : Option String) : Except Complaint Invocation := do
  match ← readArguments .root {} args with
  | (_, some (.help, rest)) => throw (helpOn .root rest)
  | (outer, some (l, rest)) =>
    let inner ← (← readArguments l {} rest).1.settle l
    let _ ← inner.complete env?
    let outer ← (← outer.settle .root).complete env?
    return ⟨(inner.format? <|> outer.format?).getD .text, commandOf l inner⟩
  | (outer, none) =>
    let outer ← (← outer.settle .root).complete env?
    throw (if outer.given.isEmpty then .nothing else .missingCommand)

end BurnRate.CommandLine
