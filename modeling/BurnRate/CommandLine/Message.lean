import BurnRate.CommandLine.Complaint
import BurnRate.CommandLine.Help
import BurnRate.CommandLine.Similarity

/-!
The texts with which the program answers a command line that it does not carry out.
-/

namespace BurnRate.CommandLine

/-- A list of values behind a message. -/
def valueList (title : String) (values : List String) : String :=
  "\n  [" ++ title ++ ": " ++ ", ".intercalate values ++ "]"

def tip (s : String) : String := "\n  tip: " ++ s

/-- Advice to use one of some names. -/
def similarTip (what : String) (names : List String) : String :=
  match names with
  | [] => ""
  | [name] => "\n" ++ tip ("a similar " ++ what ++ " exists: '" ++ name ++ "'")
  | names =>
    "\n" ++ tip ("some similar " ++ what ++ "s exist: "
      ++ ", ".intercalate (names.map fun n => "'" ++ n ++ "'"))

def Advice.tip (arg : String) : Advice → String
  | similar a => similarTip "argument" ["--" ++ a.long]
  | ofSubcommand l a =>
    "\n" ++ CommandLine.tip ("'" ++ l.name ++ " --" ++ a.long ++ "' exists")
  | asValue =>
    "\n" ++ CommandLine.tip ("to pass '" ++ arg ++ "' as a value, use '-- " ++ arg ++ "'")

/-- The end of a message; the help of the subcommand `help` cannot be asked for. -/
def closing (l : Level) : String :=
  match l with
  | .help => "\n"
  | _ => "\n\nFor more information, try '--help'.\n"

namespace Complaint

/-- The text of an answer, for the name by which the program is called. -/
def text (program env : String) : Complaint → String
  | help l long => helpText program env l long
  | version => versionText
  | nothing => helpText program env .root false
  | missingCommand =>
    "error: '" ++ program ++ "' requires a subcommand but one was not provided"
      ++ valueList "subcommands" (Level.subcommands.map (·.name))
      ++ "\n\n" ++ usage program .root ++ closing .root
  | unknownCommand l name similar =>
    "error: unrecognized subcommand '" ++ name ++ "'" ++ similarTip "subcommand" similar
      ++ "\n\n" ++ usage program l ++ closing l
  | escapedCommand name =>
    "error: unexpected argument '" ++ name ++ "' found\n"
      ++ tip ("subcommand '" ++ name ++ "' exists; to use it, remove the '--' before it")
      ++ "\n\n" ++ usage program .root ++ closing .root
  | unknownArgument l arg advice? used =>
    "error: unexpected argument '" ++ arg ++ "' found" ++ advice?.elim "" (·.tip arg)
      ++ "\n\n" ++ usageWith program l used ++ closing l
  | missingValue a =>
    "error: a value is required for '" ++ a.text ++ "' but none was supplied"
      ++ (if a = .logFormat then valueList "possible values" (LogFormat.all.map (·.name)) else "")
      ++ closing .root
  | invalidFormat value =>
    let names := LogFormat.all.map (·.name)
    "error: invalid value '" ++ value ++ "' for '" ++ Argument.logFormat.text ++ "'"
      ++ valueList "possible values" names
      ++ similarTip "value" (similar value names).getLast?.toList ++ closing .root
  | repeated l a =>
    "error: the argument '" ++ a.text ++ "' cannot be used multiple times\n\n" ++ usage program l
      ++ closing l
  | excessValue l a value used =>
    "error: unexpected value '" ++ value ++ "' for '" ++ a.text
      ++ "' found; no more were expected\n\n" ++ usageWith program l used ++ closing l

end Complaint

/-- The name of a program that is called by a path; without a file in the path it is its own. -/
def programName (path : String) : String :=
  let names := (path.splitOn "/").filter fun n => n != "" && n != "."
  match names.getLast? with
  | none | some ".." => ownName
  | some n => n

end BurnRate.CommandLine
