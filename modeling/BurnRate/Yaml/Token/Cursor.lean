import BurnRate.Yaml.Character

/-!
Places in a text: what is left of it, with line and column.

In a text that is read, every line ends with a line feed or with one of the two Unicode
separators; other spellings of a line end have been replaced.
-/

namespace BurnRate.Yaml

/-- The text with each spelling of a line end made a line feed. -/
def unifyBreaks : List Char → List Char
  | '\r' :: '\n' :: cs => '\n' :: unifyBreaks cs
  | '\r' :: cs => '\n' :: unifyBreaks cs
  | '\x85' :: cs => '\n' :: unifyBreaks cs
  | c :: cs => c :: unifyBreaks cs
  | [] => []

structure Cursor where
  rest : List Char
  line : Nat := 0
  column : Nat := 0
  deriving Repr

namespace Cursor

/-- Moves over characters of the line. -/
def advance (c : Cursor) (n : Nat) : Cursor :=
  { c with rest := c.rest.drop n, column := c.column + n }

/-- Moves over characters that satisfy the test, none of which ends the line. -/
def skipWhile (c : Cursor) (p : Char → Bool) : Cursor :=
  { c with rest := c.rest.dropWhile p, column := c.column + (c.rest.takeWhile p).length }

/-- Moves over the end of the line, if the cursor is there. -/
def skipBreak (c : Cursor) : Cursor :=
  match c.rest with
  | d :: ds => if isBreak d then ⟨ds, c.line + 1, 0⟩ else c
  | [] => c

end Cursor

/-- The text ends or goes on with a blank or a break. -/
def endsToken : List Char → Bool
  | [] => true
  | c :: _ => isSpacing c || isBreak c

/-- The text starts with three given characters that stand alone. -/
def startsWithMark (m : Char) : List Char → Bool
  | a :: b :: c :: cs => a == m && b == m && c == m && endsToken cs
  | _ => false

/-- A line that starts like this marks the start or the end of a document. -/
def isDocumentMark (cs : List Char) : Bool := startsWithMark '-' cs || startsWithMark '.' cs

/-- Characters of names: ASCII letters and digits, dash and underscore. -/
def isNameChar (c : Char) : Bool := c.isAlphanum || c == '-' || c == '_'

end BurnRate.Yaml
