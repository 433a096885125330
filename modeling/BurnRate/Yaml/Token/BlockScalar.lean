import BurnRate.Yaml.Token.Cursor

/-!
Literal and folded block scalars.

The lines of a block scalar start at one column. It is given behind the `|` or `>`, relative to
the enclosing block, or is that of the first line with text. Literal scalars keep their line
ends; in folded ones a line end between two lines that do not start with a blank becomes a space.
-/

namespace BurnRate.Yaml

/-- What happens to the line ends behind the last line. -/
inductive Chomping where
  | strip
  | clip
  | keep
  deriving DecidableEq, Repr

/-- The marks behind `|` or `>`: chomping, and an indentation from 1 to 9. -/
def blockMarks : List Char → Option (Chomping × Option Nat × List Char)
  | c :: cs =>
    let chomping? (c : Char) : Option Chomping :=
      if c == '+' then some .keep else if c == '-' then some .strip else none
    let indent? (c : Char) : Option Nat := if c.isDigit then some (c.toNat - 48) else none
    match chomping? c, indent? c with
    | some chomping, _ =>
      match cs with
      | d :: ds =>
        match indent? d with
        | some 0 => none
        | some n => some (chomping, some n, ds)
        | none => some (chomping, none, d :: ds)
      | [] => some (chomping, none, [])
    | none, some 0 => none
    | none, some n =>
      match cs with
      | d :: ds =>
        match chomping? d with
        | some chomping => some (chomping, some n, ds)
        | none => some (.clip, some n, d :: ds)
      | [] => some (.clip, some n, [])
    | none, none => some (.clip, none, c :: cs)
  | [] => some (.clip, none, [])

/-- The greatest column that spaces reach on the blank lines at the start and on the line
behind them; none if a tab stands among them. -/
def reachOfBlankLines (column reach : Nat) : List Char → Option Nat
  | [] => some (max column reach)
  | c :: cs =>
    if c == ' ' then reachOfBlankLines (column + 1) reach cs
    else if c == '\t' then none
    else if isBreak c then reachOfBlankLines 0 (max column reach) cs
    else some (max column reach)

/-- Reads the lines of a block scalar. -/
structure BlockText where
  literal : Bool
  /-- The column of its lines. -/
  indent : Nat

/-- What was read: the text, the line end of the last line with text and those behind it. Each
list has its last character first. -/
structure BlockRead where
  text : List Char := []
  lineEnd : List Char := []
  more : List Char := []
  /-- The last line with text starts with a blank. -/
  blankStart : Bool := false

namespace BlockRead

/-- Joins the line ends that were read, before a line with text. -/
def join (r : BlockRead) (literal blankStart : Bool) : BlockRead :=
  let ends :=
    if !literal && r.lineEnd == ['\n'] && !r.blankStart && !blankStart then
      if r.more.isEmpty then [' '] else r.more
    else r.more ++ r.lineEnd
  { text := ends ++ r.text, blankStart }

def finish (r : BlockRead) : Chomping → List Char
  | .strip => r.text.reverse
  | .clip => (r.lineEnd ++ r.text).reverse
  | .keep => (r.more ++ r.lineEnd ++ r.text).reverse

end BlockRead

/-- Reads from the start of a line or from inside its text, as `inLine` says, up to the first
line that starts before the column. -/
def scanBlockLines (b : BlockText) (r : BlockRead) (inLine : Bool) (line column : Nat) :
    List Char → Option (BlockRead × Cursor)
  | [] => some (r, ⟨[], line, column⟩)
  | c :: cs =>
    if inLine then
      if isBreak c then scanBlockLines b { r with lineEnd := [c] } false (line + 1) 0 cs
      else scanBlockLines b { r with text := c :: r.text } true line (column + 1) cs
    else if column < b.indent && c == ' ' then
      scanBlockLines b r false line (column + 1) cs
    else if column < b.indent && c == '\t' then none
    else if isBreak c then
      scanBlockLines b { r with more := c :: r.more } false (line + 1) 0 cs
    else if column = b.indent then
      let r := r.join b.literal (isSpacing c)
      scanBlockLines b { r with text := c :: r.text } true line (column + 1) cs
    else some (r, ⟨c :: cs, line, column⟩)

/-- Reads a block scalar behind its `|` or `>`. `parent` is the column after that of the
enclosing block. -/
def scanBlockScalar (literal : Bool) (parent : Nat) (c : Cursor) :
    Option (List Char × Cursor) := do
  let (chomping, indent?, rest) ← blockMarks c.rest
  let c := { c with rest }.skipWhile isSpacing
  let c := if c.rest.head?.any (· == '#') then c.skipWhile (!isBreak ·) else c
  if !endsToken c.rest then none
  else
    let c := c.skipBreak
    let indent ← match indent?, parent with
      | some n, 0 => some n
      | some n, p + 1 => some (p + n)
      | none, _ => (reachOfBlankLines c.column 0 c.rest).map fun reach => max reach (max parent 1)
    let (r, c) ← scanBlockLines ⟨literal, indent⟩ {} false c.line c.column c.rest
    some (r.finish chomping, c)

end BurnRate.Yaml
