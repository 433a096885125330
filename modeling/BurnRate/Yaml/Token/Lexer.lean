import BurnRate.Yaml.Token.BlockScalar
import BurnRate.Yaml.Token.Tag

/-!
From text to tokens.

Indentation opens and closes block collections. A scalar or a collection that may turn out to be
a key is remembered as a candidate; when its colon comes on the same line and not too far behind
it, the token for a key is put before it.
-/

namespace BurnRate.Yaml.Token

/-- A node that is a key if a colon follows it. -/
structure Candidate where
  /-- Number of tokens before it. -/
  position : Nat
  line : Nat
  column : Nat
  /-- The node can be nothing but a key. -/
  isRequired : Bool
  deriving Repr

/-- How far a colon may stand behind the start of its key. -/
def maxKeyLength : Nat := 1024

structure LexState where
  cursor : Cursor
  tokens : Array Token := #[]
  /-- Columns of the open block collections, the innermost first. -/
  indents : List Nat := []
  /-- A key may start here. -/
  keyAllowed : Bool := true
  candidate? : Option Candidate := none
  /-- For each open bracket, the innermost first, the candidate outside of it. -/
  outer : List (Option Candidate) := []

namespace LexState

def inFlow (s : LexState) : Bool := !s.outer.isEmpty

def push (s : LexState) (t : Token) : LexState := { s with tokens := s.tokens.push t }

/-- The column behind that of the innermost block collection. -/
def margin (s : LexState) : Nat :=
  match s.indents with
  | [] => 0
  | i :: _ => i + 1

/-- Closes the block collections that start behind a column. -/
def closeBlocks (s : LexState) (keeps : Nat → Bool) : LexState :=
  if s.inFlow then s
  else
    let kept := s.indents.dropWhile (!keeps ·)
    { s with
      indents := kept
      tokens := s.tokens ++ Array.replicate (s.indents.length - kept.length) Token.blockEnd }

/-- Opens a block collection at a column, unless one is open there. -/
def openBlock (s : LexState) (column position : Nat) (t : Token) : LexState :=
  if s.inFlow || column < s.margin then s
  else
    { s with
      indents := column :: s.indents
      tokens := s.tokens.insertIdxIfInBounds position t }

/-- Gives up the candidate, which must not be required. -/
def dropCandidate? (s : LexState) : Option LexState :=
  if s.candidate?.any (·.isRequired) then none else some { s with candidate? := none }

/-- Remembers that the node at the cursor may be a key. -/
def noteCandidate? (s : LexState) : Option LexState :=
  if s.keyAllowed then do
    let s ← s.dropCandidate?
    some { s with candidate? := some {
      position := s.tokens.size
      line := s.cursor.line
      column := s.cursor.column
      isRequired := !s.inFlow && s.indents.head? == some s.cursor.column } }
  else some s

/-- The candidate, if the colon at the cursor is near enough. -/
def key? (s : LexState) : Option Candidate :=
  s.candidate?.filter fun k =>
    k.line == s.cursor.line && s.cursor.column ≤ k.column + maxKeyLength

/-- A required candidate whose colon is missing by now. -/
def hasLostKey (s : LexState) : Bool := s.candidate?.any (·.isRequired) && s.key?.isNone

end LexState

/-- Moves over blanks, comments and line ends. Tabs count as blanks where no key may start; a new
line outside of brackets allows a key again. -/
def skipGap (inFlow keyAllowed inComment : Bool) (line column : Nat) :
    List Char → Cursor × Bool
  | [] => (⟨[], line, column⟩, keyAllowed)
  | c :: cs =>
    if isBreak c then skipGap inFlow (keyAllowed || !inFlow) false (line + 1) 0 cs
    else if inComment || c == ' ' || (c == '\t' && (inFlow || !keyAllowed)) then
      skipGap inFlow keyAllowed inComment line (column + 1) cs
    else if c == '#' then skipGap inFlow keyAllowed true line (column + 1) cs
    else (⟨c :: cs, line, column⟩, keyAllowed)

namespace LexState

/-- Moves to the next token and closes the blocks that end before it. -/
def skip (s : LexState) : LexState :=
  let c := s.cursor
  let (cursor, keyAllowed) := skipGap s.inFlow s.keyAllowed false c.line c.column c.rest
  let s := { s with cursor, keyAllowed }
  s.closeBlocks (· ≤ cursor.column)

/-- Ends all blocks, before a mark at the start of a line. -/
def endBlocks? (s : LexState) : Option LexState := do
  let s ← (s.closeBlocks fun _ => false).dropCandidate?
  some { s with keyAllowed := false }

/-- Appends a token that is so many characters long. -/
def take (s : LexState) (n : Nat) (t : Token) : LexState :=
  { s with cursor := s.cursor.advance n, tokens := s.tokens.push t }

def directive? (s : LexState) : Option LexState := do
  let s ← s.endBlocks?
  let (t, rest) ← scanDirective (s.cursor.rest.drop 1)
  let c := { s.cursor with rest }.skipWhile isSpacing
  let c := if c.rest.head?.any (· == '#') then c.skipWhile (!isBreak ·) else c
  if endsToken c.rest then some { s.push t with cursor := c.skipBreak } else none

def documentMark? (s : LexState) (t : Token) : Option LexState := do
  let s ← s.endBlocks?
  some (s.take 3 t)

def openFlow? (s : LexState) (t : Token) : Option LexState := do
  let s ← s.noteCandidate?
  some { s.take 1 t with
    keyAllowed := true, outer := s.candidate? :: s.outer, candidate? := none }

def closeFlow? (s : LexState) (t : Token) : Option LexState := do
  let s ← s.dropCandidate?
  let s := match s.outer with
    | [] => s
    | k? :: ks => { s with candidate? := k?, outer := ks }
  some { s.take 1 t with keyAllowed := false }

def flowEntry? (s : LexState) : Option LexState := do
  let s ← s.dropCandidate?
  some { s.take 1 .flowEntry with keyAllowed := true }

def blockEntry? (s : LexState) : Option LexState := do
  if !s.inFlow && !s.keyAllowed then none
  else
    let s ← (s.openBlock s.cursor.column s.tokens.size .blockSequence).dropCandidate?
    some { s.take 1 .blockEntry with keyAllowed := true }

def key (s : LexState) : Option LexState := do
  if !s.inFlow && !s.keyAllowed then none
  else
    let s ← (s.openBlock s.cursor.column s.tokens.size .blockMapping).dropCandidate?
    some { s.take 1 .key with keyAllowed := !s.inFlow }

def value? (s : LexState) : Option LexState :=
  if s.hasLostKey then none
  else
    match s.key? with
    | some k =>
      let s := { s with
        tokens := s.tokens.insertIdxIfInBounds k.position .key
        candidate? := none
        keyAllowed := false }
      some ((s.openBlock k.column k.position .blockMapping).take 1 .value)
    | none =>
      if !s.inFlow && !s.keyAllowed then none
      else
        let s := s.openBlock s.cursor.column s.tokens.size .blockMapping
        some { s.take 1 .value with keyAllowed := !s.inFlow, candidate? := none }

def name? (s : LexState) (token : String → Token) : Option LexState := do
  let s ← s.noteCandidate?
  let (name, rest) ← scanName (s.cursor.rest.drop 1)
  some { s.push (token name) with
    cursor := { s.cursor with rest, column := s.cursor.column + 1 + name.length }
    keyAllowed := false }

def tag? (s : LexState) : Option LexState := do
  let s ← s.noteCandidate?
  let (handle, suffix, rest) ← scanTag s.inFlow s.cursor.rest
  some { s.push (.tag handle suffix) with
    cursor := { s.cursor with
      rest, column := s.cursor.column + (s.cursor.rest.length - rest.length) }
    keyAllowed := false }

def blockScalar? (s : LexState) (literal : Bool) : Option LexState := do
  let s ← s.dropCandidate?
  let (text, cursor) ← scanBlockScalar literal s.margin (s.cursor.advance 1)
  some { s.push (.scalar false (String.ofList text)) with cursor, keyAllowed := true }

def quotedScalar? (s : LexState) (single : Bool) : Option LexState := do
  let s ← s.noteCandidate?
  let c := s.cursor.advance 1
  let (text, cursor) ← scanQuoted single [] c.line c.column (.between (.blanks [])) c.rest
  some { s.push (.scalar false (String.ofList text)) with cursor, keyAllowed := false }

def plainScalar? (s : LexState) : Option LexState := do
  let s ← s.noteCandidate?
  let c := s.cursor
  let r ← scanPlain s.inFlow s.margin [] (.blanks []) c.line c.column c.rest
  some { s.push (.scalar true (String.ofList r.text)) with
    cursor := r.ended, keyAllowed := r.newLine }

/-- Starts a word of structure and not of text. -/
def isReserved (c : Char) : Bool :=
  "-?:,[]\x7b\x7d#&*!|>'\"%@`".toList.contains c

/-- Reads the token at the cursor. -/
def step? (s : LexState) : Option LexState :=
  match s.cursor.rest with
  | [] => some s
  | c :: cs =>
    let atStart := s.cursor.column == 0
    if atStart && c == '%' then s.directive?
    else if atStart && startsWithMark '-' (c :: cs) then s.documentMark? .documentStart
    else if atStart && startsWithMark '.' (c :: cs) then s.documentMark? .documentEnd
    else if c == '[' then s.openFlow? .flowSequence
    else if c == '\x7b' then s.openFlow? .flowMapping
    else if c == ']' then s.closeFlow? .flowSequenceEnd
    else if c == '\x7d' then s.closeFlow? .flowMappingEnd
    else if c == ',' then s.flowEntry?
    else if c == '-' && endsToken cs then s.blockEntry?
    else if c == '?' && (s.inFlow || endsToken cs) then s.key
    else if c == ':' && (s.inFlow || endsToken cs) then s.value?
    else if c == '*' then s.name? .alias
    else if c == '&' then s.name? .anchor
    else if c == '!' then s.tag?
    else if c == '|' && !s.inFlow then s.blockScalar? true
    else if c == '>' && !s.inFlow then s.blockScalar? false
    else if c == '\'' then s.quotedScalar? true
    else if c == '"' then s.quotedScalar? false
    else if !(isSpacing c || isReserved c) || c == '-'
        || (!s.inFlow && (c == '?' || c == ':')) then s.plainScalar?
    else none

/-- Reads all tokens; `fuel` bounds their number. -/
def run? (s : LexState) : Nat → Option LexState
  | 0 => none
  | fuel + 1 =>
    let s := s.skip
    if s.cursor.rest.isEmpty then s.endBlocks?
    else s.step?.bind (run? · fuel)

end LexState

/-- The text without a byte order mark at its start; the mark takes up a column. -/
def startOf (cs : List Char) : Cursor :=
  match cs with
  | '\ufeff' :: r => { rest := r, column := 1 }
  | r => { rest := r }

/-- The tokens of a text, if it is well-formed. -/
def ofText? (s : String) : Option (List Token) :=
  if !s.toList.all isAllowed then none
  else
    let cs := unifyBreaks s.toList
    (LexState.run? { cursor := startOf cs } (cs.length + 1)).map (·.tokens.toList)

end BurnRate.Yaml.Token
