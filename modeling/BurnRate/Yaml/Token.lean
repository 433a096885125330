/-!
The words of a YAML document, with the block structure that its indentation shows.
-/

namespace BurnRate.Yaml

inductive Token where
  /-- `%YAML` with its version. -/
  | version (major minor : Nat)
  /-- `%TAG`: the handle stands for the start of a tag. -/
  | tagHandle (handle expansion : String)
  /-- `---` -/
  | documentStart
  /-- `...` -/
  | documentEnd
  | blockSequence
  | blockMapping
  | blockEnd
  | flowSequence
  | flowSequenceEnd
  | flowMapping
  | flowMappingEnd
  /-- The comma between flow entries. -/
  | flowEntry
  /-- The dash of a block sequence. -/
  | blockEntry
  /-- What follows is a key. -/
  | key
  /-- What follows is the value of the key before. -/
  | value
  | anchor (name : String)
  | alias (name : String)
  | tag (handle suffix : String)
  /-- Text of a scalar; only a plain one can be other than text. -/
  | scalar (plain : Bool) (text : String)
  deriving DecidableEq, Repr

end BurnRate.Yaml
