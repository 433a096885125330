import BurnRate.Yaml.Token.Cursor

/-!
Plain and quoted scalars: texts in which a single line end counts as a space.

Blanks around line ends are dropped. A run of line ends loses its first one, or becomes
a space if it has no other; a first one that is a Unicode separator stays.
-/

namespace BurnRate.Yaml

/-- What stands between the last word that was read and the next. -/
inductive Gap where
  /-- Blanks within a line, the last one first. -/
  | blanks (cs : List Char)
  /-- Line ends: the first, if it is not escaped, and those behind it, the last one first. -/
  | breaks (first? : Option Char) (more : List Char)
  deriving Repr

namespace Gap

/-- The text that a gap becomes, the last character first. -/
def folded : Gap → List Char
  | blanks cs => cs
  | breaks (some '\n') [] => [' ']
  | breaks (some '\n') more => more
  | breaks (some c) more => more ++ [c]
  | breaks none more => more

def pushBlank (c : Char) : Gap → Gap
  | blanks cs => blanks (c :: cs)
  | breaks first? more => breaks first? more

def pushBreak (c : Char) : Gap → Gap
  | blanks _ => breaks (some c) []
  | breaks first? more => breaks first? (c :: more)

def hasBreak : Gap → Bool
  | blanks _ => false
  | breaks _ _ => true

end Gap

/-- A flow indicator ends a plain scalar between brackets. -/
def isFlowIndicator (c : Char) : Bool :=
  c == ',' || c == '[' || c == ']' || c == '\x7b' || c == '\x7d'

/-- What a plain scalar does at a character of a word. -/
inductive PlainStep where
  | take
  | stop
  | fail
  deriving DecidableEq

/-- Decides by the character and those behind it; `flow` says that brackets are open. -/
def plainStep (flow : Bool) (c : Char) (cs : List Char) : PlainStep :=
  if flow && c == ':' && cs.head?.any (fun d => isFlowIndicator d || d == '?') then .fail
  else if (c == ':' && endsToken cs) || (flow && isFlowIndicator c) then .stop
  else .take

/-- A scalar that was read, where it ends, and whether lines ended behind its last word. -/
structure PlainScan where
  text : List Char
  ended : Cursor
  newLine : Bool

/-- Reads a plain scalar from the gap before a word on. `margin` is the least column of its
further lines; `read` holds the text so far, the last character first. -/
def scanPlain (flow : Bool) (margin : Nat) (read : List Char) (gap : Gap) (line column : Nat) :
    List Char → Option PlainScan
  | [] => some ⟨read.reverse, ⟨[], line, column⟩, gap.hasBreak⟩
  | c :: cs =>
    if isBreak c then scanPlain flow margin read (gap.pushBreak c) (line + 1) 0 cs
    else if isSpacing c then
      if gap.hasBreak && column < margin && c == '\t' then none
      else scanPlain flow margin read (gap.pushBlank c) line (column + 1) cs
    else
      let atWord := match gap with
        | .blanks [] => false
        | _ => true
      let ends := (atWord && ((!flow && column < margin) || c == '#'))
        || (column == 0 && isDocumentMark (c :: cs))
      match if ends then PlainStep.stop else plainStep flow c cs with
      | .fail => none
      | .stop => some ⟨read.reverse, ⟨c :: cs, line, column⟩, gap.hasBreak⟩
      | .take => scanPlain flow margin (c :: (gap.folded ++ read)) (.blanks []) line (column + 1) cs

/-- What an escape of one letter stands for. -/
def escaped? (c : Char) : Option Char :=
  match c with
  | '0' => some '\x00'
  | 'a' => some '\x07'
  | 'b' => some '\x08'
  | 't' => some '\t'
  | '\t' => some '\t'
  | 'n' => some '\n'
  | 'v' => some '\x0b'
  | 'f' => some '\x0c'
  | 'r' => some '\r'
  | 'e' => some '\x1b'
  | ' ' => some ' '
  | '"' => some '"'
  | '/' => some '/'
  | '\\' => some '\\'
  | 'N' => some '\x85'
  | '_' => some '\xa0'
  | 'L' => some '\u2028'
  | 'P' => some '\u2029'
  | _ => none

/-- How many digits follow an escape by number. -/
def escapeWidth? (c : Char) : Option Nat :=
  match c with
  | 'x' => some 2
  | 'u' => some 4
  | 'U' => some 8
  | _ => none

def hexValue? (c : Char) : Option Nat :=
  if c.isDigit then some (c.toNat - 48)
  else if 'a' ≤ c && c ≤ 'f' then some (c.toNat - 87)
  else if 'A' ≤ c && c ≤ 'F' then some (c.toNat - 55)
  else none

/-- The character with a code point, if there is one. -/
def charOf? (n : Nat) : Option Char := if n.isValidChar then some (Char.ofNat n) else none

/-- Where a quoted scalar is being read. -/
inductive QuotedState where
  /-- In a word, or in the gap behind it. -/
  | between (gap : Gap)
  /-- Behind a backslash. -/
  | escape
  /-- In an escape by number, with the digits still to come. -/
  | number (digits value : Nat)
  /-- Behind a quote that ends a single-quoted scalar unless a second one follows. -/
  | quote

/-- Reads a quoted scalar behind its opening quote. -/
def scanQuoted (single : Bool) (read : List Char) (line column : Nat) :
    QuotedState → List Char → Option (List Char × Cursor)
  | .quote, [] => some (read.reverse, ⟨[], line, column⟩)
  | _, [] => none
  | .quote, c :: cs =>
    if c == '\'' then
      scanQuoted single ('\'' :: read) line (column + 1) (.between (.blanks [])) cs
    else some (read.reverse, ⟨c :: cs, line, column⟩)
  | .escape, c :: cs =>
    if isBreak c then scanQuoted single read (line + 1) 0 (.between (.breaks none [])) cs
    else
      match escapeWidth? c with
      | some n => scanQuoted single read line (column + 1) (.number n 0) cs
      | none =>
        match escaped? c with
        | some d => scanQuoted single (d :: read) line (column + 1) (.between (.blanks [])) cs
        | none => none
  | .number digits value, c :: cs =>
    match hexValue? c with
    | none => none
    | some d =>
      let value := 16 * value + d
      if digits ≤ 1 then
        match charOf? value with
        | some e => scanQuoted single (e :: read) line (column + 1) (.between (.blanks [])) cs
        | none => none
      else scanQuoted single read line (column + 1) (.number (digits - 1) value) cs
  | .between gap, c :: cs =>
    if column == 0 && isDocumentMark (c :: cs) then none
    else if isBreak c then
      scanQuoted single read (line + 1) 0 (.between (gap.pushBreak c)) cs
    else if isSpacing c then
      scanQuoted single read line (column + 1) (.between (gap.pushBlank c)) cs
    else
      let read := gap.folded ++ read
      if single && c == '\'' then scanQuoted single read line (column + 1) .quote cs
      else if !single && c == '"' then some (read.reverse, ⟨cs, line, column + 1⟩)
      else if !single && c == '\\' then scanQuoted single read line (column + 1) .escape cs
      else scanQuoted single (c :: read) line (column + 1) (.between (.blanks [])) cs

end BurnRate.Yaml
