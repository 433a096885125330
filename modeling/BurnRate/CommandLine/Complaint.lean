import BurnRate.CommandLine.Basic

/-!
Why a command line asks for nothing to be built, and how the program answers then.
-/

namespace BurnRate.CommandLine

/-- Advice on an argument that is not known. -/
inductive Advice where
  | similar (a : Argument)
  /-- The argument belongs to a subcommand that follows. -/
  | ofSubcommand (l : Level) (a : Argument)
  /-- It can be given as a value. -/
  | asValue
  deriving DecidableEq, Repr

/-- Requests for help, and mistakes. `used` are the arguments that usage is told of. -/
inductive Complaint where
  | help (l : Level) (long : Bool)
  | version
  /-- There is nothing on the command line. -/
  | nothing
  | missingCommand
  | unknownCommand (l : Level) (name : String) (similar : List String)
  /-- A subcommand behind two dashes. -/
  | escapedCommand (name : String)
  | unknownArgument (l : Level) (arg : String) (advice? : Option Advice) (used : List Argument)
  | missingValue (a : Argument)
  | invalidFormat (value : String)
  | repeated (l : Level) (a : Argument)
  | excessValue (l : Level) (a : Argument) (value : String) (used : List Argument)
  deriving DecidableEq, Repr

namespace Complaint

/-- Help and version are what was asked for; all else is a failure. -/
def isFailure : Complaint → Bool
  | help .. | version => false
  | _ => true

def exitCode (c : Complaint) : Nat := if c.isFailure then 2 else 0

end Complaint

end BurnRate.CommandLine
