import BurnRate.Yaml.Character
import BurnRate.Yaml.Scalar

/-!
How a text is written as a scalar.

A text with a line feed asks for a literal block; one that would read back as something else
than text is quoted; all others are written plain. Where the form asked for would not read back
as the text, single quotes and then double quotes take its place.
-/

namespace BurnRate.Yaml

inductive Style where
  | plain
  | singleQuoted
  | doubleQuoted
  | literal
  deriving DecidableEq, Repr

/-- Ends a word: a space, a tab, a break, or the end of the text. -/
def endsWord : List Char → Bool
  | [] => true
  | c :: _ => isSpacing c || isBreak c || c == '\x00'

/-- Means something other than text at the start of a plain scalar. -/
def isIndicator (c : Char) : Bool :=
  "#,[]\x7b\x7d&*!|>'\"%@`".toList.contains c

/-- The text starts with a mark of structure. -/
def startsWithIndicator : List Char → Bool
  | '-' :: '-' :: '-' :: _ => true
  | '.' :: '.' :: '.' :: _ => true
  | c :: cs => isIndicator c || ((c == '?' || c == ':' || c == '-') && endsWord cs)
  | [] => false

/-- After its first character the text holds `:` before or `#` after the end of a word. -/
def holdsIndicator : List Char → Bool
  | _ :: ':' :: cs => endsWord cs || holdsIndicator (':' :: cs)
  | a :: '#' :: cs => endsWord [a] || holdsIndicator ('#' :: cs)
  | _ :: cs => holdsIndicator cs
  | [] => false

/-- Two neighbours of which the first and the second have the given classes. -/
def holdsPair (p q : Char → Bool) : List Char → Bool
  | a :: b :: cs => (p a && q b) || holdsPair p q (b :: cs)
  | _ => false

def isSpace (c : Char) : Bool := c == ' '

/-- A plain scalar with these characters would be text and not resemble a number. -/
def isPlainText (cs : List Char) : Bool := (Scalar.ofPlain cs).isText && !isZeroPadded cs

/-- A space before a break, or a character that has to be escaped. -/
def needsEscape (cs : List Char) : Bool :=
  holdsPair isSpace isBreak cs || !cs.all isPrintable

def allowsPlain (cs : List Char) : Bool :=
  !needsEscape cs && !cs.any isBreak && !startsWithIndicator cs && !holdsIndicator cs
    && !cs.head?.any isSpace && !cs.getLast?.any isSpace

def allowsSingleQuoted (cs : List Char) : Bool :=
  !needsEscape cs && !holdsPair isBreak isSpace cs

def allowsLiteral (cs : List Char) : Bool :=
  !needsEscape cs && !cs.getLast?.any isSpace

namespace Style

/-- The form in which a text is written. -/
def choose (cs : List Char) : Style :=
  if cs.contains '\n' then
    if allowsLiteral cs then .literal else .doubleQuoted
  else if isPlainText cs && allowsPlain cs then .plain
  else if allowsSingleQuoted cs then .singleQuoted
  else .doubleQuoted

end Style

/-- A text that may stand before a `:` on one line: at most 128 bytes long and without breaks. -/
def isSimpleKey (cs : List Char) : Bool :=
  !cs.any isBreak && (String.ofList cs).utf8ByteSize ≤ 128

end BurnRate.Yaml
