import BurnRate.Decimal.Numeral
import BurnRate.Expression.Token
import BurnRate.Text.Blank

/-!
From text to tokens.

Outside of tags everything is copied. A tag starts with two open braces, or with one and a
percent sign or a number sign; a minus sign inside its marks removes the white space next
to it. A raw block is copied as it is.
-/

namespace BurnRate.Expression.Lexer

/-- What a sign inside the marks of a tag says about the white space next to it. -/
inductive Spacing where
  | unmarked
  | remove
  | keep
  deriving DecidableEq, Repr

def Spacing.ofChar (c? : Option Char) : Spacing :=
  if c? == some '-' then .remove else if c? == some '+' then .keep else .unmarked

def Spacing.length : Spacing → Nat
  | .unmarked => 0
  | .remove | .keep => 1

inductive Marker where
  | variable
  | block
  | comment
  deriving DecidableEq, Repr

def Marker.ofChar? (c : Char) : Option Marker :=
  if c == '\x7b' then some .variable
  else if c == '%' then some .block
  else if c == '#' then some .comment
  else none

/-- A text split at the first marker: what is before it, the marker and what is behind it. -/
structure Split where
  before : List Char
  marker : Marker
  spacing : Spacing
  rest : List Char

/-- Finds the first brace that starts a tag. -/
def split? : List Char → Option Split
  | '\x7b' :: c :: cs =>
    match Marker.ofChar? c with
    | some marker =>
      let spacing := Spacing.ofChar cs.head?
      some ⟨[], marker, spacing, cs.drop spacing.length⟩
    | none => (split? (c :: cs)).map fun s => { s with before := '\x7b' :: s.before }
  | c :: cs => (split? cs).map fun s => { s with before := c :: s.before }
  | [] => none

/-- White space between the tokens of a tag: that of ASCII without the vertical tab. -/
def isTagBlank (c : Char) : Bool :=
  c == ' ' || c == '\t' || c == '\n' || c == '\x0c' || c == '\r'

def lineBreaks (cs : List Char) : Nat := cs.count '\n'

/-- What is behind a given start of a text. -/
def behind? : List Char → List Char → Option (List Char)
  | [], cs => some cs
  | p :: ps, c :: cs => if p == c then behind? ps cs else none
  | _ :: _, [] => none

/-- The text around the first occurrence of two characters. -/
def around? (a b : Char) : List Char → Option (List Char × List Char)
  | c :: d :: cs =>
    if c == a && d == b then some ([], cs)
    else (around? a b (d :: cs)).map fun (before, rest) => (c :: before, rest)
  | _ => none

/-- Reads a tag that holds nothing but a name, up to its end. -/
def bareTag? (name : List Char) (cs : List Char) : Option (Spacing × List Char) := do
  let cs ← behind? name (cs.dropWhile isTagBlank)
  let cs := cs.dropWhile isTagBlank
  let spacing := Spacing.ofChar cs.head?
  let cs ← behind? ['%', '\x7d'] (cs.drop spacing.length)
  some (spacing, cs)

/-- The end of a raw block: its text, the sign before its end tag, that behind it, the rest. -/
structure RawEnd where
  text : List Char
  before : Spacing
  after : Spacing
  rest : List Char

/-- Finds the tag that ends a raw block. -/
def rawEnd? : List Char → Option RawEnd
  | '\x7b' :: '%' :: cs =>
    let before := Spacing.ofChar cs.head?
    match bareTag? "endraw".toList (cs.drop before.length) with
    | some (after, rest) => some ⟨[], before, after, rest⟩
    | none => (rawEnd? ('%' :: cs)).map fun r => { r with text := '\x7b' :: r.text }
  | c :: cs => (rawEnd? cs).map fun r => { r with text := c :: r.text }
  | [] => none

def symbol2? (c d : Char) : Option Symbol :=
  match c, d with
  | '/', '/' => some .doubleSlash
  | '*', '*' => some .doubleStar
  | '=', '=' => some .equal
  | '!', '=' => some .notEqual
  | '>', '=' => some .greaterEqual
  | '<', '=' => some .lessEqual
  | _, _ => none

def symbol? (c : Char) : Option Symbol :=
  match c with
  | '+' => some .plus
  | '-' => some .minus
  | '*' => some .star
  | '/' => some .slash
  | '%' => some .percent
  | '.' => some .dot
  | ',' => some .comma
  | ':' => some .colon
  | '~' => some .tilde
  | '=' => some .assign
  | '>' => some .greater
  | '<' => some .less
  | '|' => some .bar
  | '(' => some .openParen
  | ')' => some .closeParen
  | '[' => some .openBracket
  | ']' => some .closeBracket
  | '\x7b' => some .openBrace
  | '\x7d' => some .closeBrace
  | _ => none

/-- Reads a string literal behind its opening quote: its raw characters and what follows. -/
def rawString? (quote : Char) : List Char → Option (List Char × List Char)
  | [] => none
  | '\\' :: c :: cs => (rawString? quote cs).map fun (s, rest) => ('\\' :: c :: s, rest)
  | c :: cs =>
    if c == quote then some ([], cs)
    else if c == '\\' then none
    else (rawString? quote cs).map fun (s, rest) => (c :: s, rest)

def hexDigit? (c : Char) : Option Nat :=
  if c.isDigit then some (c.toNat - 48)
  else if 'a' ≤ c && c ≤ 'f' then some (c.toNat - 87)
  else if 'A' ≤ c && c ≤ 'F' then some (c.toNat - 55)
  else none

/-- The number that hexadecimal digits denote; a plus sign may stand for the first. -/
def codeUnit? (cs : List Char) : Option Nat := do
  let ds := match cs with
    | '+' :: ds => ds
    | ds => ds
  return (← ds.mapM hexDigit?).foldl (16 * · + ·) 0

def isSurrogate (n : Nat) : Bool := 0xd800 ≤ n && n ≤ 0xdfff

/-- The character that a pair of surrogates stands for. -/
def joinSurrogates? (high low : Nat) : Option Char :=
  if high < 0xdc00 && 0xdc00 ≤ low then
    some (Char.ofNat (0x10000 + (high - 0xd800) * 0x400 + (low - 0xdc00)))
  else none

def isOctalDigit (c : Char) : Bool := '0' ≤ c && c ≤ '7'

/-- The character that a number below 256 stands for. -/
def byteChar? (n : Nat) : Option Char := if n < 256 then some (Char.ofNat n) else none

/-- Replaces the escapes of a string literal; a backslash before a character that needs none stays.
`high?` is the first half of a pair of surrogates whose second half must follow. -/
def unescape? (high? : Option Nat) : List Char → Option (List Char)
  | [] => if high?.isSome then none else some []
  | '\\' :: 'u' :: a :: b :: c :: d :: cs => do
    let n ← codeUnit? [a, b, c, d]
    match high?, isSurrogate n with
    | none, false => (unescape? none cs).map (Char.ofNat n :: ·)
    | none, true => unescape? (some n) cs
    | some _, false => none
    | some high, true => do
      let e ← joinSurrogates? high n
      (unescape? none cs).map (e :: ·)
  | '\\' :: 'x' :: a :: b :: cs => do
    let n ← codeUnit? [a, b]
    if high?.isSome then none else (unescape? none cs).map (Char.ofNat n :: ·)
  | '\\' :: c :: cs =>
    if high?.isSome || c == 'u' || c == 'x' then none
    else if isOctalDigit c then do
      let more := (cs.take 2).takeWhile isOctalDigit
      let e ← byteChar? ((c :: more).foldl (fun n d => 8 * n + (d.toNat - 48)) 0)
      (unescape? none (cs.drop more.length)).map (e :: ·)
    else
      let new : List Char :=
        match c with
        | '"' | '\\' | '/' | '\'' => [c]
        | 'b' => ['\x08']
        | 'f' => ['\x0c']
        | 'n' => ['\n']
        | 'r' => ['\r']
        | 't' => ['\t']
        | _ => ['\\', c]
      (unescape? none cs).map (new ++ ·)
  | c :: cs => if high?.isSome || c == '\\' then none else (unescape? none cs).map (c :: ·)
termination_by cs => cs.length
decreasing_by all_goals simp only [List.length_cons, List.length_drop]; omega

def isIdentStart (c : Char) : Bool := c.isAlpha || c == '_'

def isIdentChar (c : Char) : Bool := c.isAlphanum || c == '_'

/-- The text starts with an exponent: its letter, a sign or none, a digit. -/
def startsExponent : List Char → Bool
  | e :: c :: cs =>
    (e == 'e' || e == 'E')
      && (c.isDigit || ((c == '+' || c == '-') && cs.head?.any Char.isDigit))
  | _ => false

/-- A point before this text belongs to a number and not to the name of an attribute. -/
def continuesNumber (cs : List Char) : Bool :=
  startsExponent cs || !cs.head?.any isIdentStart

/-- Where the reader of a number stands. -/
inductive NumberState where
  /-- Digits alone, behind a dot. -/
  | index
  | whole
  | fraction
  | exponentSign
  | exponent
  deriving DecidableEq

def NumberState.isWhole (s : NumberState) : Bool := s == .index || s == .whole

/-- Splits the longest start of a text that looks like a decimal number. -/
def scanDecimal (state : NumberState) : List Char → List Char × NumberState × List Char
  | [] => ([], state, [])
  | c :: cs =>
    let next? : Option NumberState :=
      if c.isDigit then some (if state == .exponentSign then .exponent else state)
      else if c == '_' then some state
      else if c == '.' && state == .whole && continuesNumber cs then some .fraction
      else if (c == 'e' || c == 'E') && (state == .whole || state == .fraction) then
        some .exponentSign
      else if (c == '+' || c == '-') && state == .exponentSign then some .exponent
      else none
    match next? with
    | some next =>
      let (ds, state, rest) := scanDecimal next cs
      (c :: ds, state, rest)
    | none => ([], state, c :: cs)

/-- The value of digits in a base, if it fits 128 bits. -/
def natural? (base : Nat) (cs : List Char) : Option Nat :=
  if cs.isEmpty then none
  else
    (cs.foldlM (fun n c => ((hexDigit? c).filter (· < base)).map (base * n + ·)) 0).filter
      (· < 0x100000000000000000000000000000000)

/-- A float literal; it may be too great to be finite. -/
def floatValue? (cs : List Char) : Option Float := do
  let (whole, fraction, e) ← Decimal.splitNumeral? cs
  some (Decimal.nearest (Decimal.digitsValue (whole ++ fraction)) (e - fraction.length))

/-- Reads a number at the start of a text; underscores may stand between digits. Behind a dot it is
a whole number. -/
def scanNumber (behindDot : Bool) (cs : List Char) : Option Token × List Char :=
  let radix : Nat × List Char :=
    match cs with
    | '0' :: c :: r =>
      if c == 'b' || c == 'B' then (2, r)
      else if c == 'o' || c == 'O' then (8, r)
      else if c == 'x' || c == 'X' then (16, r)
      else (10, cs)
    | _ => (10, cs)
  let (base, body) := radix
  let (digits, isFloat, rest) :=
    if base = 10 then
      let (ds, state, rest) := scanDecimal (if behindDot then .index else .whole) body
      (ds, !state.isWhole, rest)
    else
      let isDigit (c : Char) : Bool :=
        c == '_' || c.isDigit || (base == 16 && (hexDigit? c).isSome)
      (body.takeWhile isDigit, false, body.dropWhile isDigit)
  if digits.getLast? == some '_' then (none, rest)
  else
    let digits := digits.filter (· != '_')
    if isFloat then ((floatValue? digits).map .float, rest)
    else ((natural? base digits).map .int, rest)

/-- Reads one token inside a tag, from a character that is not blank on. -/
def scanToken (behindDot : Bool) (c : Char) (cs : List Char) : Token × List Char :=
  match cs.head?.bind (symbol2? c) with
  | some s => (.symbol s, cs.drop 1)
  | none =>
    match symbol? c with
    | some s => (.symbol s, cs)
    | none =>
      if c == '\'' || c == '"' then
        match rawString? c cs with
        | none => (.malformed .syntaxError, [])
        | some (raw, rest) =>
          match unescape? none raw with
          | some s => (.text (String.ofList s), rest)
          | none => (.malformed .badEscape, [])
      else if c.isDigit then
        match scanNumber behindDot (c :: cs) with
        | (some t, rest) => (t, rest)
        | (none, _) => (.malformed .syntaxError, [])
      else if isIdentStart c then
        (.ident (String.ofList (c :: cs.takeWhile isIdentChar)), cs.dropWhile isIdentChar)
      else (.malformed .syntaxError, [])

/-- The end of a tag at the start of a text, with its sign. -/
def tagEnd? (isVariable : Bool) (cs : List Char) : Option (Spacing × List Char) :=
  let close := if isVariable then ['\x7d', '\x7d'] else ['%', '\x7d']
  let spacing := Spacing.ofChar cs.head?
  (behind? close (cs.drop spacing.length)).map (spacing, ·)

/-- A piece of text as a token, unless it is empty. -/
def dataToken (cs : List Char) (line : Nat) : List Located :=
  if cs.isEmpty then [] else [⟨.data (String.ofList cs), line⟩]

mutual

/-- Reads from outside of tags. `trim` removes the white space at the start. -/
def scanData (fuel : Nat) (trim : Bool) (line : Nat) (cs : List Char) : List Located :=
  match fuel with
  | 0 => []
  | fuel + 1 =>
    let blanks := if trim then cs.takeWhile Text.isBlank else []
    let cs := cs.drop blanks.length
    let line := line + lineBreaks blanks
    match split? cs with
    | none => dataToken cs line
    | some s =>
      let before := if s.spacing == .remove then Text.trimEnd s.before else s.before
      let tagLine := line + lineBreaks s.before
      dataToken before line ++
        match s.marker with
        | .variable => ⟨.openVariable, tagLine⟩ :: scanTag fuel true 0 false tagLine s.rest
        | .comment =>
          match around? '#' '\x7d' s.rest with
          | none => [⟨.malformed .syntaxError, tagLine⟩]
          | some (comment, rest) =>
            scanData fuel (comment.getLast? == some '-') (tagLine + lineBreaks comment) rest
        | .block =>
          match bareTag? "raw".toList s.rest with
          | none => ⟨.openBlock, tagLine⟩ :: scanTag fuel false 0 false tagLine s.rest
          | some (spacing, raw) =>
            let rawLine := tagLine + (lineBreaks s.rest - lineBreaks raw)
            match rawEnd? raw with
            | none => [⟨.malformed .syntaxError, rawLine⟩]
            | some r =>
              let text := if spacing == .remove then Text.trimStart r.text else r.text
              let text := if r.before == .remove then Text.trimEnd text else text
              ⟨.data (String.ofList text), rawLine⟩ ::
                scanData fuel (r.after == .remove)
                  (rawLine + (lineBreaks raw - lineBreaks r.rest)) r.rest

/-- Reads inside a tag, with so many open brackets; between them the tag cannot end. `dotted` says
that a dot stands before the text. -/
def scanTag (fuel : Nat) (isVariable : Bool) (nesting : Int) (dotted : Bool) (line : Nat)
    (cs : List Char) : List Located :=
  match fuel with
  | 0 => []
  | fuel + 1 =>
    let blanks := cs.takeWhile isTagBlank
    let cs := cs.dropWhile isTagBlank
    let line := line + lineBreaks blanks
    let closing? := if nesting = 0 then tagEnd? isVariable cs else none
    match closing?, cs with
    | some (spacing, rest), _ =>
      ⟨if isVariable then .closeVariable else .closeBlock, line⟩ ::
        scanData fuel (spacing == .remove) line rest
    | none, [] => []
    | none, c :: r =>
      match scanToken (dotted && blanks.isEmpty) c r with
      | (.malformed cause, _) => [⟨.malformed cause, line⟩]
      | (t, rest) =>
        let nesting := match t with
          | .symbol s => nesting + s.nesting
          | _ => nesting
        let breaks := match t with
          | .text _ => lineBreaks r - lineBreaks rest
          | _ => 0
        let dotted := match t with
          | .symbol .dot => true
          | _ => false
        ⟨t, line⟩ :: scanTag fuel isVariable nesting dotted (line + breaks) rest

end

/-- The tokens of a text. -/
def tokens (s : String) : List Located :=
  let cs := s.toList
  scanData (2 * cs.length + 2) false 1 cs

end BurnRate.Expression.Lexer
