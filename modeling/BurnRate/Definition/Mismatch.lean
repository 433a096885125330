import BurnRate.RequestClass
import BurnRate.Text.Quoted
import BurnRate.Yaml.Value

/-!
How the body of a definition can fail to have the shape of its kind.
-/

namespace BurnRate.Definition

inductive Mismatch where
  | type (found : Yaml.Value) (expected : String)
  | duration (text : String)
  | requestClass (text : String)
  | missing (field : String)
  | duplicate (field : String)
  /-- A local tag where none is looked through. -/
  | tag
  deriving Repr

/-- What a value is, in messages. -/
def describe : Yaml.Value → String
  | .null => "unit value"
  | .bool b => "boolean `" ++ (if b then "true" else "false") ++ "`"
  | .int n => "integer `" ++ toString n ++ "`"
  | .float x => "floating point `" ++ Decimal.pointedNumeral x ++ "`"
  | .text s => "string " ++ Text.quoted s
  | .sequence _ => "sequence"
  | .mapping _ => "map"
  | .tagged .. => "enum"

def Mismatch.text : Mismatch → String
  | type found expected => "invalid type: " ++ describe found ++ ", expected " ++ expected
  | duration text => "invalid value: string " ++ Text.quoted text ++ ", expected a duration"
  | requestClass text =>
    "unknown variant `" ++ text ++ "`, expected one of "
      ++ ", ".intercalate (RequestClass.all.map fun c => "`" ++ c.text ++ "`")
  | missing field => "missing field `" ++ field ++ "`"
  | duplicate field => "duplicate field `" ++ field ++ "`"
  | tag => "untagged and internally tagged enums do not support enum input"

end BurnRate.Definition
