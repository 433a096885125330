import BurnRate.CommandLine.Basic

/-!
Help and usage texts of the program and its subcommands.
-/

namespace BurnRate.CommandLine

/-- The program and a subcommand as they are called. -/
def Level.call (program : String) (l : Level) : String :=
  match l with
  | .root => program
  | l => program ++ " " ++ l.name

def Level.about : Level → String
  | .root => "Build Prometheus SLO pipelines from SLO templates"
  | .listTemplates => "Lists available SLO templates"
  | .build => "Builds the Prometheus rule group from the given SLO definitions"
  | .help => "Print this message or the help of the given subcommand(s)"

/-- One line on how a level is called. -/
def usage (program : String) (l : Level) : String :=
  "Usage: " ++ l.call program ++ match l with
    | .root => " [OPTIONS] <COMMAND>"
    | .listTemplates => " [OPTIONS]"
    | .build => " [OPTIONS] [SLO_DEFINITIONS]..."
    | .help => " [COMMAND]..."

/-- One line on how a level is called with some arguments; without any, the general one. -/
def usageWith (program : String) (l : Level) (used : List Argument) : String :=
  if used.isEmpty then usage program l
  else
    let options := (used.filter (· != .definitions)).map fun a => " " ++ a.text
    "Usage: " ++ l.call program ++ String.join options ++ match l with
      | .root => " <COMMAND>"
      | .build =>
        if used.contains .definitions then " <SLO_DEFINITIONS>..." else " [SLO_DEFINITIONS]..."
      | _ => ""

/-- A text that is padded with spaces to a width. -/
def padded (width : Nat) (s : String) : String :=
  s ++ String.ofList (List.replicate (width - s.length) ' ')

/-- Entries in two columns. -/
def columns (entries : List (String × String)) : String :=
  let width := (entries.map (·.1.length)).foldl max 0
  String.join (entries.map fun (left, right) => "  " ++ padded width left ++ "  " ++ right ++ "\n")

namespace Argument

/-- The argument at the start of its entry. -/
def entryHead : Argument → String
  | logFormat => "    --log-format <LOG_FORMAT>"
  | name => "    --name <NAME>"
  | output => "-o, --output <OUTPUT>"
  | help => "-h, --help"
  | version => "-V, --version"
  | definitions => "[SLO_DEFINITIONS]..."

def about (detailed : Bool) : Argument → String
  | logFormat => "Log format: text or json"
  | name => "Name of the generated Prometheus rule group"
  | output => "Write the rule file here instead of stdout"
  | help =>
    if detailed then "Print help (see a summary with '-h')" else "Print help (see more with '--help')"
  | version => "Print version"
  | definitions => "Files containing lists of SLO template instances"

/-- What is told of values behind the description; `env` is the one in the environment. -/
def valueNotes (env : String) : Argument → List String
  | logFormat => ["[env: LOG_FORMAT=" ++ env ++ "]", "[default: text]"]
  | name => ["[default: " ++ defaultGroupName ++ "]"]
  | _ => []

/-- The entry in a summary. -/
def summary (env : String) (a : Argument) : String × String :=
  let notes := a.valueNotes env ++ match a with
    | logFormat => ["[possible values: text, json]"]
    | _ => []
  (a.entryHead, " ".intercalate (a.about false :: notes))

/-- Lines about the values of an argument. -/
def possibleValues : Argument → List String
  | logFormat =>
    ["", "Possible values:", "- text: Human-readable text format (default)",
      "- json: Structured JSON format for log aggregation"]
  | _ => []

/-- The entry in a detailed help text. -/
def details (env : String) (a : Argument) : String :=
  let indented (line : String) : String := "          " ++ line ++ "\n"
  let blank (line : String) : String := if line.isEmpty then "\n" else indented line
  let notes := (a.valueNotes env).map indented
  "  " ++ a.entryHead ++ "\n" ++ indented (a.about true)
    ++ String.join (a.possibleValues.map blank)
    ++ (if notes.isEmpty then "" else indented "" ++ String.join notes)

end Argument

/-- A titled list of arguments. -/
def argumentList (title env : String) (long : Bool) (as : List Argument) : String :=
  "\n" ++ title ++ ":\n"
    ++ if long then "\n".intercalate (as.map (·.details env)) else columns (as.map (·.summary env))

/-- The options of a level in the order of its help. -/
def Level.listed : Level → List Argument
  | .root => [.logFormat, .help, .version]
  | .listTemplates => [.logFormat, .help]
  | .build => [.logFormat, .name, .output, .help]
  | .help => []

/-- The help text of a level. -/
def helpText (program env : String) (l : Level) (long : Bool) : String :=
  let head := l.about ++ "\n\n" ++ usage program l ++ "\n"
  match l with
  | .root =>
    head ++ "\nCommands:\n" ++ columns (Level.subcommands.map fun s => (s.name, s.about))
      ++ argumentList "Options" env long l.listed
  | .listTemplates => head ++ argumentList "Options" env long l.listed
  | .build =>
    head ++ argumentList "Arguments" env long [.definitions]
      ++ argumentList "Options" env long l.listed
  | .help => head ++ "\nArguments:\n" ++ columns [("[COMMAND]...", "Print help for the subcommand(s)")]

/-- The name that the program has by itself. -/
def ownName : String := "slo-builder"

/-- The name of the program and its version. -/
def versionText : String := ownName ++ " 0.1.0\n"

end BurnRate.CommandLine
