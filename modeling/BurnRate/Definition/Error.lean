/-!
Why definitions are refused.
-/

namespace BurnRate

inductive DefinitionError where
  | read (path message : String)
  /-- The text is no document that lists definitions. -/
  | document (message : String)
  | unknownTemplate (template : String) (index : Nat)
  /-- The body has not the shape of its template. -/
  | body (template : String) (index : Nat) (message : String)
  | invalid (name message : String)
  deriving DecidableEq, Repr

def DefinitionError.text : DefinitionError → String
  | read path message => "failed to read definitions file " ++ path ++ ": " ++ message
  | document message => "invalid definitions document: " ++ message
  | unknownTemplate template index =>
    "definition #" ++ toString index ++ ": unsupported template type: " ++ template
  | body template index message =>
    "definition #" ++ toString index ++ " (" ++ template ++ "): " ++ message
  | invalid name message => "invalid SLO '" ++ name ++ "': " ++ message

end BurnRate
