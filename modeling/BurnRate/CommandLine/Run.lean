import BurnRate.CommandLine.Message
import BurnRate.CommandLine.Parser
import BurnRate.Definition.Load
import BurnRate.ErrorChain

/-!
What the program does: its output, its exit code, and the files it leaves.

Nothing is written before all files are read and all rules are made.
-/

namespace BurnRate.CommandLine

/-- How a run of the program ends. -/
structure Outcome where
  exitCode : Nat
  stdout : String := ""
  stderr : String := ""
  /-- A failure, and the format in which it is logged. -/
  failure? : Option (LogFormat × ErrorChain) := none
  files : FileSystem

/-- What a command ends in. -/
inductive Effect where
  | print (text : String)
  | write (path text : String)
  deriving DecidableEq, Repr

/-- The text of the rule file for definitions in files. -/
def ruleFile (readText : String → Except FileError String) (name : String) (paths : List String) :
    Except ErrorChain String := do
  let slos ← (loadDefinitions .default readText paths).mapError fun e =>
    (ErrorChain.ofDefinition e).within "failed to load slos from definition files"
  let p ← (Pipeline.registerAll { name } slos).mapError .ofPipeline
  return (p.build .default).toYaml

/-- Carries out a command up to its effect. -/
def effectOf (readText : String → Except FileError String) : Command → Except ErrorChain Effect
  | .listTemplates => .ok (.print (String.join (Registry.default.names.map (· ++ "\n"))))
  | .build name output? paths => do
    let text ← ruleFile readText name paths
    return output?.elim (.print text) (.write · text)

/-- The error of an effect that fails. -/
def writeError (path : String) (e : FileError) : ErrorChain :=
  (ErrorChain.ofText e.text).within ("failed to write " ++ path)

/-- Carries out a command: what is printed, and the files afterwards. -/
def perform (fs : FileSystem) (c : Command) : Except ErrorChain (String × FileSystem) := do
  match ← effectOf fs.readText c with
  | .print text => return (text, fs)
  | .write path text =>
    let fs ← (fs.writeText path text).mapError (writeError path)
    return ("", fs)

/-- Runs the program. `env?` is the log format of the environment. -/
def run (program : String) (args : List String) (env? : Option String) (fs : FileSystem) :
    Outcome :=
  match parse args env? with
  | .error c =>
    let text := c.text program (env?.getD "")
    if c.isFailure then { exitCode := c.exitCode, stderr := text, files := fs }
    else { exitCode := c.exitCode, stdout := text, files := fs }
  | .ok i =>
    match perform fs i.command with
    | .ok (stdout, files) => { exitCode := 0, stdout, files }
    | .error e => { exitCode := 1, failure? := some (i.logFormat, e), files := fs }

end BurnRate.CommandLine
