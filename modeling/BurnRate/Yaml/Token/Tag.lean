import BurnRate.Yaml.Token.Cursor
import BurnRate.Yaml.Token.Flow
import BurnRate.Yaml.Token

/-!
Tags, anchors and directives: the words that start with `!`, `&`, `*` and `%`.
-/

namespace BurnRate.Yaml

/-- May stand in the suffix of a tag besides an escape. -/
def isTagChar (verbatim : Bool) (c : Char) : Bool :=
  isNameChar c || ";/?:@&=+$.!~*'()".toList.contains c
    || (verbatim && (c == ',' || c == '[' || c == ']'))

/-- Length of the UTF-8 sequence that starts with a byte. -/
def sequenceLength? (b : Nat) : Option Nat :=
  if b < 0x80 then some 1
  else if b / 32 = 6 then some 2
  else if b / 16 = 14 then some 3
  else if b / 8 = 30 then some 4
  else none

/-- The bytes of escapes of the form `%E2` that make up one character. -/
def escapedBytes : Nat → List Char → Option (List Nat × List Char)
  | 0, cs => some ([], cs)
  | n + 1, '%' :: a :: b :: cs => do
    let byte := 16 * (← hexValue? a) + (← hexValue? b)
    let (bytes, rest) ← escapedBytes n cs
    some (byte :: bytes, rest)
  | _ + 1, _ => none

/-- Reads one escaped character of a tag. -/
def escapedTagChar? (cs : List Char) : Option (Char × List Char) := do
  let ([first], _) ← escapedBytes 1 cs | none
  let n ← sequenceLength? first
  let (bytes, rest) ← escapedBytes n cs
  if !(bytes.drop 1).all (fun b => b / 64 == 2) then none
  else
    let text ← String.fromUTF8? ⟨(bytes.map Nat.toUInt8).toArray⟩
    let [c] := text.toList | none
    some (c, rest)

/-- Reads the characters of a tag; `fuel` bounds their number. -/
def scanTagChars (verbatim : Bool) : Nat → List Char → Option (List Char × List Char)
  | 0, cs => some ([], cs)
  | fuel + 1, cs =>
    match cs with
    | [] => some ([], [])
    | c :: r =>
      if c == '%' then do
        let (d, rest) ← escapedTagChar? (c :: r)
        let (ds, rest) ← scanTagChars verbatim fuel rest
        some (d :: ds, rest)
      else if isTagChar verbatim c then do
        let (ds, rest) ← scanTagChars verbatim fuel r
        some (c :: ds, rest)
      else some ([], c :: r)

/-- Splits a handle such as `!`, `!e!` or `!!`, or the start of a suffix, from a text. -/
def scanHandle : List Char → Option (List Char × List Char)
  | '!' :: cs =>
    let name := cs.takeWhile isNameChar
    match cs.dropWhile isNameChar with
    | '!' :: rest => some ('!' :: name ++ ['!'], rest)
    | rest => some ('!' :: name, rest)
  | _ => none

/-- Reads a tag: its handle, empty for a verbatim tag, its suffix, and what follows. -/
def scanTag (flow : Bool) (cs : List Char) : Option (String × String × List Char) := do
  let (handle, suffix, rest) ← match cs with
    | '!' :: '<' :: r => do
      let (suffix, rest) ← scanTagChars true r.length r
      match rest with
      | '>' :: rest => if suffix.isEmpty then none else some ([], suffix, rest)
      | _ => none
    | _ => do
      let (head, r) ← scanHandle cs
      if 2 ≤ head.length && head.getLast? == some '!' then
        let (suffix, rest) ← scanTagChars false r.length r
        if suffix.isEmpty then none else some (head, suffix, rest)
      else
        let (more, rest) ← scanTagChars false r.length r
        match head.drop 1 ++ more with
        | [] => some ([], ['!'], rest)
        | suffix => some (['!'], suffix, rest)
  if endsToken rest || (flow && rest.head? == some ',') then
    some (String.ofList handle, String.ofList suffix, rest)
  else none

/-- Reads the name of an anchor or of an alias behind its mark. -/
def scanName (cs : List Char) : Option (String × List Char) :=
  let name := cs.takeWhile isNameChar
  let rest := cs.dropWhile isNameChar
  let ended := endsToken rest || rest.head?.any fun c => "?:,]\x7d%@`".toList.contains c
  if name.isEmpty || !ended then none else some (String.ofList name, rest)

/-- A number of at most nine digits. -/
def scanVersionNumber (cs : List Char) : Option (Nat × List Char) :=
  let digits := cs.takeWhile Char.isDigit
  if digits.isEmpty || 9 < digits.length then none
  else some (digits.foldl (fun n c => 10 * n + (c.toNat - 48)) 0, cs.dropWhile Char.isDigit)

/-- Reads a directive behind its percent sign, up to the end of its content. -/
def scanDirective (cs : List Char) : Option (Token × List Char) := do
  let name := String.ofList (cs.takeWhile isNameChar)
  let rest := cs.dropWhile isNameChar
  if !endsToken rest then none
  else
    let rest := rest.dropWhile isSpacing
    match name with
    | "YAML" =>
      let (major, rest) ← scanVersionNumber rest
      let '.' :: rest := rest | none
      let (minor, rest) ← scanVersionNumber rest
      some (.version major minor, rest)
    | "TAG" =>
      let (handle, rest) ← scanHandle rest
      if handle != ['!'] && !(2 ≤ handle.length && handle.getLast? == some '!') then none
      else if !rest.head?.any isSpacing then none
      else
        let rest := rest.dropWhile isSpacing
        let (expansion, rest) ← scanTagChars true rest.length rest
        if expansion.isEmpty || !endsToken rest then none
        else some (.tagHandle (String.ofList handle) (String.ofList expansion), rest)
    | _ => none

end BurnRate.Yaml
