import BurnRate.Duration.Printer
import BurnRate.Rule
import BurnRate.Yaml.Block

/-!
Rule files: groups of rules as a YAML document.

A recording rule is written as `record`, `labels`, `expr`, an alerting rule as `alert`, `for`,
`labels`, `expr`; empty labels are left out.
-/

namespace BurnRate

open Yaml (Block)

def Labels.toBlock (l : Labels) : Block := .record (l.entries.map fun (k, v) => (k, .text v))

/-- The field of a rule's labels, if it has any. -/
def Labels.field (l : Labels) : List (String × Block) :=
  if l.isEmpty then [] else [("labels", l.toBlock)]

namespace Rule

def toBlock : Rule → Block
  | recording record labels expr =>
    .record ([("record", .text record)] ++ labels.field ++ [("expr", .text expr)])
  | alerting alert hold labels expr =>
    .record ([("alert", .text alert), ("for", .text hold.text)] ++ labels.field
      ++ [("expr", .text expr)])

/-- The rule as a document of its own. -/
def toYaml (r : Rule) : String := r.toBlock.write

end Rule

def RuleGroup.toBlock (g : RuleGroup) : Block :=
  .record [("name", .text g.name), ("rules", .list (g.rules.map Rule.toBlock))]

namespace RuleGroups

def toBlock (gs : RuleGroups) : Block :=
  .record [("groups", .list (gs.groups.map RuleGroup.toBlock))]

/-- The rule file. -/
def toYaml (gs : RuleGroups) : String := gs.toBlock.write

end RuleGroups

end BurnRate
