import BurnRate.Yaml.Style

/-!
Documents in block style: texts, lists and records, one entry a line.

A record inside a list starts on the line of its dash, a list inside a record is not indented
against its key, all else is indented by two. A key that is too long or has several lines
is written behind `?` and its value on a line of its own behind `:`.
-/

namespace BurnRate.Yaml

inductive Block where
  | text (s : String)
  | list (items : List Block)
  | record (fields : List (String × Block))
  deriving Repr

def spaces (n : Nat) : List Char := List.replicate n ' '

def hexDigits (width n : Nat) : List Char :=
  let ds := (Nat.toDigits 16 n).map Char.toUpper
  List.replicate (width - ds.length) '0' ++ ds

/-- A character between double quotes. -/
def escapeChar (c : Char) : List Char :=
  match c with
  | '\x00' => ['\\', '0']
  | '\x07' => ['\\', 'a']
  | '\x08' => ['\\', 'b']
  | '\t' => ['\\', 't']
  | '\n' => ['\\', 'n']
  | '\x0b' => ['\\', 'v']
  | '\x0c' => ['\\', 'f']
  | '\r' => ['\\', 'r']
  | '\x1b' => ['\\', 'e']
  | '"' => ['\\', '"']
  | '\\' => ['\\', '\\']
  | '\x85' => ['\\', 'N']
  | '\u2028' => ['\\', 'L']
  | '\u2029' => ['\\', 'P']
  | c =>
    if isPrintable c then [c]
    else if c.toNat ≤ 0xff then '\\' :: 'x' :: hexDigits 2 c.toNat
    else if c.toNat ≤ 0xffff then '\\' :: 'u' :: hexDigits 4 c.toNat
    else '\\' :: 'U' :: hexDigits 8 c.toNat

/-- Lines of a scalar from its second one on start at the given column. -/
def indentLines (indent : Nat) (atStart : Bool) : List Char → List Char
  | [] => []
  | c :: cs =>
    if isBreak c then c :: indentLines indent true cs
    else (if atStart then spaces indent else []) ++ c :: indentLines indent false cs

/-- The body of a single-quoted scalar; quotes are doubled. -/
def singleQuotedBody (indent : Nat) (cs : List Char) : List Char :=
  indentLines indent false (cs.flatMap fun c => if c == '\'' then ['\'', '\''] else [c])
    ++ if cs.getLast?.any isBreak then spaces indent else []

/-- The marks behind the bar of a literal block: its indentation, where the first line does not
show it, and whether the line end is kept, dropped or repeated. -/
def literalMarks (cs : List Char) : List Char :=
  (if cs.head?.any (fun c => isSpace c || isBreak c) then ['2'] else [])
    ++ match cs.reverse with
      | [] => ['-']
      | [c] => if isBreak c then ['+'] else ['-']
      | c :: d :: _ => if !isBreak c then ['-'] else if isBreak d then ['+'] else []

/-- A text as a scalar whose further lines start at the given column. -/
def writeScalar (indent : Nat) (cs : List Char) : List Char :=
  match Style.choose cs with
  | .plain => cs
  | .singleQuoted => '\'' :: singleQuotedBody indent cs ++ ['\'']
  | .doubleQuoted => '"' :: cs.flatMap escapeChar ++ ['"']
  | .literal => '|' :: literalMarks cs ++ '\n' :: indentLines indent true cs

/-- Ends the line, unless a literal block has ended it. -/
def endLine (cs : List Char) : List Char :=
  if cs.getLast?.any isBreak then cs else cs ++ ['\n']

namespace Block

mutual

/-- The lines of a block, of which the first continues a line that has reached the column. -/
def writeAt (indent : Nat) : Block → List Char
  | text s => endLine (writeScalar indent s.toList)
  | list [] => ['[', ']', '\n']
  | list (b :: bs) => '-' :: ' ' :: writeAt (indent + 2) b ++ writeItems indent bs
  | record [] => ['\x7b', '\x7d', '\n']
  | record (f :: fs) => writeField indent f ++ writeFields indent fs

/-- The items of a list, each on its own line from the column on. -/
def writeItems (indent : Nat) : List Block → List Char
  | [] => []
  | b :: bs => spaces indent ++ '-' :: ' ' :: writeAt (indent + 2) b ++ writeItems indent bs

/-- The fields of a record, each on its own line from the column on. -/
def writeFields (indent : Nat) : List (String × Block) → List Char
  | [] => []
  | f :: fs => spaces indent ++ writeField indent f ++ writeFields indent fs

/-- A field of a record in the column. -/
def writeField (indent : Nat) : String × Block → List Char
  | (key, value) =>
    let cs := key.toList
    if isSimpleKey cs then writeScalar (indent + 2) cs ++ ':' :: writeValue indent value
    else
      '?' :: ' ' :: endLine (writeScalar (indent + 2) cs)
        ++ spaces indent ++ ':' :: ' ' :: writeAt (indent + 2) value

/-- The value of a field behind its colon. -/
def writeValue (indent : Nat) : Block → List Char
  | text s => ' ' :: endLine (writeScalar (indent + 2) s.toList)
  | list [] => [' ', '[', ']', '\n']
  | list (b :: bs) =>
    '\n' :: spaces indent ++ '-' :: ' ' :: writeAt (indent + 2) b ++ writeItems indent bs
  | record [] => [' ', '\x7b', '\x7d', '\n']
  | record (f :: fs) =>
    '\n' :: spaces (indent + 2) ++ writeField (indent + 2) f ++ writeFields (indent + 2) fs

end

/-- The document that holds a block. -/
def write (b : Block) : String := String.ofList (writeAt 0 b)

end Block

end BurnRate.Yaml
