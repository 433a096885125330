import BurnRate.Expression.Free
import BurnRate.Expression.Parser

/-!
What can be wrong with an expression text before its placeholders have values.
-/

namespace BurnRate.Expression

inductive Flaw where
  | malformed (refusal : Refusal)
  /-- Placeholders that no value is given for, in order. -/
  | unknown (names : List String)
  /-- Placeholders that have to occur and do not. -/
  | missing (names : List String)
  deriving DecidableEq, Repr

def Refusal.text (r : Refusal) : String :=
  match r.cause with
  | .syntaxError => r.cause.text
  | cause => cause.text ++ " (in <string>:" ++ toString r.line ++ ")"

def Flaw.text : Flaw → String
  | malformed refusal => refusal.text
  | unknown names =>
    "unknown placeholder(s): " ++ ", ".intercalate (names.map fun n => "'" ++ n ++ "'")
  | missing names =>
    "missing required placeholder(s): "
      ++ ", ".intercalate (names.map fun n => "'\x7b\x7b " ++ n ++ " \x7d\x7d'")

/-- The placeholders of an expression text. -/
def placeholders (source : String) : Except Flaw (List String) :=
  match parse source with
  | .ok ss => .ok (freeNames ss)
  | .error refusal => .error (.malformed refusal)

/-- Checks that a text has no placeholder but the allowed ones. -/
def checkAllowed (source : String) (allowed : List String) : Except Flaw Unit := do
  let unknown := (← placeholders source).filter fun n => !allowed.contains n
  if unknown.isEmpty then .ok () else .error (.unknown (unknown.mergeSort (· ≤ ·)))

/-- Checks that a text has all of the required placeholders. -/
def checkRequired (source : String) (required : List String) : Except Flaw Unit := do
  let names ← placeholders source
  let missing := required.filter fun n => !names.contains n
  if missing.isEmpty then .ok () else .error (.missing missing)

end BurnRate.Expression
