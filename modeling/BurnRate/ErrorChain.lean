import BurnRate.Definition.Error
import BurnRate.Pipeline

/-!
Errors with what they happened in: the texts of an error's contexts, of the error and of its
causes, the outermost first.
-/

namespace BurnRate

structure ErrorChain where
  texts : List String
  deriving DecidableEq, Repr

namespace ErrorChain

def ofText (s : String) : ErrorChain := ⟨[s]⟩

def within (e : ErrorChain) (context : String) : ErrorChain := ⟨context :: e.texts⟩

def ofDefinition (e : DefinitionError) : ErrorChain := .ofText e.text

def ofExpansion (e : ExpansionError) : ErrorChain := .ofText e.text

/-- An error of a pipeline shows what caused it in its own text too. -/
def ofPipeline : PipelineError → ErrorChain
  | .expansion cause => (ofExpansion cause).within (PipelineError.expansion cause).text
  | e => .ofText e.text

/-- The whole chain in one line. -/
def line (e : ErrorChain) : String := ": ".intercalate e.texts

end ErrorChain

end BurnRate
