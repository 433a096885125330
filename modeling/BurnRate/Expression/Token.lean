/-!
The words of an expression text: pieces of text that are copied, and what stands inside tags.
-/

namespace BurnRate.Expression

/-- Why an expression text is refused or cannot be rendered. -/
inductive Cause where
  | syntaxError
  | badEscape
  | undefinedValue
  | invalidOperation
  | unknownFilter
  | unknownTest
  | unknownFunction
  | unknownMethod
  | unknownBlock
  | templateNotFound
  | cannotUnpack
  | tooManyArguments
  | missingArgument
  deriving DecidableEq, Repr

def Cause.text : Cause → String
  | .syntaxError => "syntax error"
  | .badEscape => "bad string escape"
  | .undefinedValue => "undefined value"
  | .invalidOperation => "invalid operation"
  | .unknownFilter => "unknown filter"
  | .unknownTest => "unknown test"
  | .unknownFunction => "unknown function"
  | .unknownMethod => "unknown method"
  | .unknownBlock => "unknown block"
  | .templateNotFound => "template not found"
  | .cannotUnpack => "cannot unpack"
  | .tooManyArguments => "too many arguments"
  | .missingArgument => "missing argument"

/-- Marks made of punctuation. -/
inductive Symbol where
  | plus | minus | star | slash | doubleSlash | doubleStar | percent | tilde
  | equal | notEqual | less | lessEqual | greater | greaterEqual
  | dot | comma | colon | assign | bar
  | openParen | closeParen | openBracket | closeBracket | openBrace | closeBrace
  deriving DecidableEq, Repr

/-- How a symbol changes the number of open brackets. -/
def Symbol.nesting : Symbol → Int
  | .openParen | .openBracket | .openBrace => 1
  | .closeParen | .closeBracket | .closeBrace => -1
  | _ => 0

inductive Token where
  /-- Text outside of tags. -/
  | data (s : String)
  /-- Two open braces. -/
  | openVariable
  | closeVariable
  /-- An open brace with a percent sign. -/
  | openBlock
  | closeBlock
  | ident (name : String)
  | text (s : String)
  | int (n : Nat)
  | float (x : Float)
  | symbol (s : Symbol)
  /-- The text is malformed from here on. -/
  | malformed (cause : Cause)
  deriving Repr

/-- A token with the number of the line in which it starts. -/
structure Located where
  token : Token
  line : Nat
  deriving Repr

end BurnRate.Expression
