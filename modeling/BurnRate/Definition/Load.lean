import BurnRate.Definition
import BurnRate.FileSystem

/-!
Reading definitions from files, in the order in which the files are given.
-/

namespace BurnRate

/-- The objectives that files define. The first file that fails ends the reading. -/
def loadDefinitions (r : Registry) (readText : String → Except FileError String) :
    List String → Except DefinitionError (List Slo)
  | [] => .ok []
  | path :: paths => do
    let document ← (readText path).mapError fun e => .read path e.text
    let slos ← parseDefinitions r document
    return slos ++ (← loadDefinitions r readText paths)

end BurnRate
