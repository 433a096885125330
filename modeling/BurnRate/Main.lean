import BurnRate.CommandLine.Run

/-!
The program on the files of the machine.
-/

namespace BurnRate.CommandLine

def fileErrorOf (e : IO.Error) : FileError :=
  match e with
  | .noFileOrDirectory .. => .notFound
  | .inappropriateType _ _ details =>
    if details.startsWith "is a" then .isDirectory else .notDirectory
  | e => .other (toString e)

def readFile (path : String) : IO (Except FileError String) := do
  try
    let content ← IO.FS.readBinFile path
    match String.fromUTF8? content with
    | some s => return .ok s
    | none => return .error .notUtf8
  catch e => return .error (fileErrorOf e)

/-- Tells a failure on the error output. -/
def logFailure (e : ErrorChain) : IO UInt32 := do
  IO.eprintln ("ERROR " ++ ownName ++ " failed error=" ++ e.line)
  return 1

def carryOut (c : Command) : IO UInt32 := do
  let paths := match c with
    | .build _ _ paths => paths
    | .listTemplates => []
  let contents ← paths.mapM fun path => return (path, ← readFile path)
  let readText (path : String) := (contents.lookup path).getD (.error .notFound)
  match effectOf readText c with
  | .ok (.print text) =>
    IO.print text
    return 0
  | .ok (.write path text) =>
    try
      IO.FS.writeFile path text
      return 0
    catch e => logFailure (writeError path (fileErrorOf e))
  | .error e => logFailure e

end BurnRate.CommandLine

open BurnRate CommandLine

def main (args : List String) : IO UInt32 := do
  let env? ← IO.getEnv "LOG_FORMAT"
  match parse args env? with
  | .ok i => carryOut i.command
  | .error c =>
    let program := programName (← IO.appPath).toString
    let text := c.text program (env?.getD "")
    if c.isFailure then IO.eprint text else IO.print text
    return c.exitCode.toUInt32
