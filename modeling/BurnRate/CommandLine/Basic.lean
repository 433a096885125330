import BurnRate.Pipeline

/-!
What can be asked of the program on its command line.
-/

namespace BurnRate.CommandLine

inductive LogFormat where
  | text
  | json
  deriving DecidableEq, Repr

namespace LogFormat

def name : LogFormat → String
  | text => "text"
  | json => "json"

def all : List LogFormat := [text, json]

def ofName? (s : String) : Option LogFormat := all.find? (·.name == s)

end LogFormat

inductive Command where
  | listTemplates
  | build (name : String) (output? : Option String) (definitions : List String)
  deriving DecidableEq, Repr

structure Invocation where
  logFormat : LogFormat
  command : Command
  deriving DecidableEq, Repr

/-- The program itself and its subcommands, each of which has arguments of its own. -/
inductive Level where
  | root
  | listTemplates
  | build
  | help
  deriving DecidableEq, Repr

namespace Level

def subcommands : List Level := [listTemplates, build, help]

/-- The name of a subcommand. -/
def name : Level → String
  | root => ""
  | listTemplates => "list-templates"
  | build => "build"
  | help => "help"

def ofName? (s : String) : Option Level := subcommands.find? (·.name == s)

end Level

inductive Argument where
  | logFormat
  | name
  | output
  | help
  | version
  | definitions
  deriving DecidableEq, Repr

namespace Argument

/-- What follows two dashes. -/
def long : Argument → String
  | logFormat => "log-format"
  | name => "name"
  | output => "output"
  | help => "help"
  | version => "version"
  | definitions => ""

/-- The argument as messages name it. -/
def text : Argument → String
  | logFormat => "--log-format <LOG_FORMAT>"
  | name => "--name <NAME>"
  | output => "--output <OUTPUT>"
  | help => "--help"
  | version => "--version"
  | definitions => "[SLO_DEFINITIONS]..."

/-- The argument takes a value. -/
def hasValue : Argument → Bool
  | logFormat | name | output | definitions => true
  | help | version => false

end Argument

namespace Level

/-- The arguments with two dashes that a level knows. -/
def options : Level → List Argument
  | root => [.logFormat, .help, .version]
  | listTemplates => [.logFormat, .help]
  | build => [.name, .output, .logFormat, .help]
  | help => []

def option? (l : Level) (long : String) : Option Argument := l.options.find? (·.long == long)

/-- The arguments with one dash that a level knows. -/
def short? (l : Level) (c : Char) : Option Argument :=
  match l, c with
  | .help, _ => none
  | _, 'h' => some .help
  | .root, 'V' => some .version
  | .build, 'o' => some .output
  | _, _ => none

/-- The level takes arguments without dashes. -/
def hasPositionals : Level → Bool
  | build => true
  | _ => false

end Level

end BurnRate.CommandLine
