import BurnRate.Expression.Evaluation
import BurnRate.Expression.Parser
import BurnRate.Labels

/-!
Rendering: a text with its placeholders replaced by values.
-/

namespace BurnRate.Expression

mutual

/-- The blocks in a statement, by name. -/
def Statement.blocks : Statement → List (String × List Statement)
  | .loop _ _ _ _ body orElse => allBlocks body ++ allBlocks orElse
  | .branch _ yes no => allBlocks yes ++ allBlocks no
  | .scope _ body => allBlocks body
  | .capture _ _ body => allBlocks body
  | .escape _ body => allBlocks body
  | .filtered _ body => allBlocks body
  | .block name body => (name, body) :: allBlocks body
  | .requiredBlock name => [(name, [.requiredBlock name])]
  | _ => []

def allBlocks : List Statement → List (String × List Statement)
  | [] => []
  | s :: ss => s.blocks ++ allBlocks ss

end

/-- The machine before a text is rendered with given values of its placeholders. -/
def Machine.start (values : Labels) (ss : List Statement) : Machine where
  frames := [{ names := values.entries.map fun (k, v) => (k, .ofText v) }]
  blocks := allBlocks ss

/-- The text that statements write. -/
def renderStatements (ss : List Statement) (values : Labels) : Answer String := do
  let (_, m) ← (execAll (perform (maxDepth + 2)) ss).run (.start values ss)
  return m.out

/-- Replaces the placeholders of an expression text. -/
def render (source : String) (values : Labels) : Answer String :=
  match parse source with
  | .ok ss => renderStatements ss values
  | .error refusal => .error refusal.cause

end BurnRate.Expression
