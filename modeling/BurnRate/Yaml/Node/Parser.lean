import BurnRate.Yaml.Node
import BurnRate.Yaml.Token.Lexer

/-!
From tokens to nodes.

A text holds at most one document. Keys and values that are left out are empty plain scalars.
-/

namespace BurnRate.Yaml.Node

/-- Tags that a handle stands for, and the anchors so far. -/
structure ParseState where
  tokens : List Token
  handles : List (String × String) := []
  /-- Names of anchors with their numbers. -/
  names : List (String × Nat) := []
  anchored : List Anchored := []
  size : Nat := 0

/-- The node that stands where nothing is written. -/
def omitted : Node := .scalar none true ""

namespace ParseState

def drop (s : ParseState) : ParseState := { s with tokens := s.tokens.drop 1 }

def count (s : ParseState) : ParseState := { s with size := s.size + 1 }

/-- Gives a name to the node that starts here, and answers its number. -/
def name (s : ParseState) (name : String) : ParseState × Nat :=
  let number := (s.names.map (·.1)).eraseDups.length
  ({ s with names := (name, number) :: s.names }, number)

end ParseState

/-- Anchor and tag in front of a node. -/
structure Properties where
  anchor? : Option String := none
  tag? : Option (String × String) := none

/-- Reads an anchor and a tag, each at most once and in any order. -/
def properties : List Token → Properties × List Token
  | .anchor a :: .tag h s :: ts => (⟨some a, some (h, s)⟩, ts)
  | .tag h s :: .anchor a :: ts => (⟨some a, some (h, s)⟩, ts)
  | .anchor a :: ts => (⟨some a, none⟩, ts)
  | .tag h s :: ts => (⟨none, some (h, s)⟩, ts)
  | ts => (⟨none, none⟩, ts)

/-- The whole tag; an empty handle marks a whole tag. -/
def resolveTag? (handles : List (String × String)) : String × String → Option String
  | (handle, suffix) =>
    if handle.isEmpty then some suffix else (handles.lookup handle).map (· ++ suffix)

/-- The token may not stand where a block node is expected to start: the node is left out. -/
def endsEntry : Option Token → Bool
  | some .key | some .value | some .blockEnd => true
  | _ => false

def endsFlowEntry (close : Token) (t? : Option Token) : Bool :=
  t? == some .flowEntry || t? == some close

mutual

/-- Reads a node. `block` allows block collections, `indentless` a block sequence in the column
of its parent. -/
def parse? (fuel : Nat) (block indentless : Bool) (s : ParseState) :
    Option (Node × ParseState) :=
  match fuel with
  | 0 => none
  | fuel + 1 =>
    match s.tokens with
    | .alias name :: ts =>
      (s.names.lookup name).map fun number => (.alias number, { s with tokens := ts }.count)
    | _ => do
      let (properties, tokens) := properties s.tokens
      let tag? ← match properties.tag? with
        | none => some none
        | some t => (resolveTag? s.handles t).map some
      let start := s.size
      let s := { s with tokens }.count
      let (s, number?) := match properties.anchor? with
        | none => (s, none)
        | some a => let (s, n) := s.name a; (s, some n)
      let (node, s) ← parseContent? fuel block indentless tag? properties s
      match number? with
      | none => some (node, s)
      | some n => some (node, { s with anchored := ⟨n, start, node⟩ :: s.anchored })

/-- Reads a node behind its anchor and tag. -/
def parseContent? (fuel : Nat) (block indentless : Bool) (tag? : Option String)
    (properties : Properties) (s : ParseState) : Option (Node × ParseState) :=
  match fuel with
  | 0 => none
  | fuel + 1 =>
    match s.tokens with
    | .scalar plain text :: ts =>
      some (.scalar (tag?.filter (· != "!")) plain text, { s with tokens := ts })
    | .flowSequence :: ts => do
      let (items, s) ← parseFlowItems? fuel true { s with tokens := ts }
      some (.sequence tag? items, s.count)
    | .flowMapping :: ts => do
      let (fields, s) ← parseFlowFields? fuel true { s with tokens := ts }
      some (.mapping tag? fields, s.count)
    | t :: ts =>
      if indentless && t == .blockEntry then do
        let (items, s) ← parseItems? fuel true s
        some (.sequence tag? items, s.count)
      else if block && t == .blockSequence then do
        let (items, s) ← parseItems? fuel false { s with tokens := ts }
        some (.sequence tag? items, s.count)
      else if block && t == .blockMapping then do
        let (fields, s) ← parseFields? fuel { s with tokens := ts }
        some (.mapping tag? fields, s.count)
      else if properties.anchor?.isSome || tag?.isSome then some (.scalar tag? true "", s)
      else none
    | [] =>
      if properties.anchor?.isSome || tag?.isSome then some (.scalar tag? true "", s) else none

/-- Reads the items of a block sequence up to its end. -/
def parseItems? (fuel : Nat) (indentless : Bool) (s : ParseState) :
    Option (List Node × ParseState) :=
  match fuel with
  | 0 => none
  | fuel + 1 =>
    match s.tokens with
    | .blockEntry :: ts => do
      let s := { s with tokens := ts }
      let next := ts.head?
      let isOmitted := next == some .blockEntry || next == some .blockEnd
        || (indentless && endsEntry next)
      let (item, s) ←
        if isOmitted then some (omitted, s.count) else parse? fuel true false s
      let (items, s) ← parseItems? fuel indentless s
      some (item :: items, s)
    | .blockEnd :: ts => some ([], if indentless then s else { s with tokens := ts })
    | _ => if indentless then some ([], s) else none

/-- Reads the fields of a block mapping up to its end. -/
def parseFields? (fuel : Nat) (s : ParseState) : Option (List (Node × Node) × ParseState) :=
  match fuel with
  | 0 => none
  | fuel + 1 =>
    match s.tokens with
    | .key :: ts => do
      let s := { s with tokens := ts }
      let (key, s) ←
        if endsEntry ts.head? then some (omitted, s.count) else parse? fuel true true s
      let (value, s) ← match s.tokens with
        | .value :: ts =>
          let s := { s with tokens := ts }
          if endsEntry ts.head? then some (omitted, s.count) else parse? fuel true true s
        | _ => some (omitted, s.count)
      let (fields, s) ← parseFields? fuel s
      some ((key, value) :: fields, s)
    | .blockEnd :: ts => some ([], { s with tokens := ts })
    | _ => none

/-- Reads the items of a flow sequence up to its bracket; `first` is true before the first. -/
def parseFlowItems? (fuel : Nat) (first : Bool) (s : ParseState) :
    Option (List Node × ParseState) :=
  match fuel with
  | 0 => none
  | fuel + 1 =>
    match s.tokens with
    | .flowSequenceEnd :: ts => some ([], { s with tokens := ts })
    | t :: ts =>
      if !first && t != .flowEntry then none
      else
        let s := if first then s else { s with tokens := ts }
        match s.tokens with
        | .flowSequenceEnd :: ts => some ([], { s with tokens := ts })
        | .key :: ts => do
          let (field, s) ← parsePair? fuel { s with tokens := ts }.count
          let (items, s) ← parseFlowItems? fuel false s.count
          some (.mapping none [field] :: items, s)
        | _ => do
          let (item, s) ← parse? fuel false false s
          let (items, s) ← parseFlowItems? fuel false s
          some (item :: items, s)
    | [] => none

/-- Reads the only field of a mapping without braces in a flow sequence, behind its key mark.
A key that is left out takes the token behind it with it. -/
def parsePair? (fuel : Nat) (s : ParseState) : Option ((Node × Node) × ParseState) :=
  match fuel with
  | 0 => none
  | fuel + 1 => do
    let next := s.tokens.head?
    let (key, s) ←
      if next == some .value || endsFlowEntry .flowSequenceEnd next then
        some (omitted, s.drop.count)
      else parse? fuel false false s
    match s.tokens with
    | .value :: ts =>
      let s := { s with tokens := ts }
      if endsFlowEntry .flowSequenceEnd ts.head? then some ((key, omitted), s.count)
      else do
        let (value, s) ← parse? fuel false false s
        some ((key, value), s)
    | _ => some ((key, omitted), s.count)

/-- Reads the fields of a flow mapping up to its brace; `first` is true before the first. -/
def parseFlowFields? (fuel : Nat) (first : Bool) (s : ParseState) :
    Option (List (Node × Node) × ParseState) :=
  match fuel with
  | 0 => none
  | fuel + 1 =>
    match s.tokens with
    | .flowMappingEnd :: ts => some ([], { s with tokens := ts })
    | t :: ts =>
      if !first && t != .flowEntry then none
      else
        let s := if first then s else { s with tokens := ts }
        match s.tokens with
        | .flowMappingEnd :: ts => some ([], { s with tokens := ts })
        | .key :: ts => do
          let s := { s with tokens := ts }
          let next := ts.head?
          let (key, s) ←
            if next == some .value || endsFlowEntry .flowMappingEnd next then
              some (omitted, s.count)
            else parse? fuel false false s
          let (value, s) ← match s.tokens with
            | .value :: ts =>
              let s := { s with tokens := ts }
              if endsFlowEntry .flowMappingEnd ts.head? then some (omitted, s.count)
              else parse? fuel false false s
            | _ => some (omitted, s.count)
          let (fields, s) ← parseFlowFields? fuel false s
          some ((key, value) :: fields, s)
        | _ => do
          let (key, s) ← parse? fuel false false s
          let (fields, s) ← parseFlowFields? fuel false s.count
          some ((key, omitted) :: fields, s)
    | [] => none

end

/-- Reads directives up to the mark that starts the document. -/
def directives? : List Token → Bool → List (String × String) →
    Option (List (String × String) × List Token)
  | .version major minor :: ts, versioned, handles =>
    if versioned || major != 1 || !(minor == 1 || minor == 2) then none
    else directives? ts true handles
  | .tagHandle handle expansion :: ts, versioned, handles =>
    if (handles.lookup handle).isSome then none
    else directives? ts versioned ((handle, expansion) :: handles)
  | .documentStart :: ts, _, handles => some (handles, ts)
  | _, _, _ => none

/-- Tags that start with `!` are local; two of them stand for the core schema. -/
def defaultHandles : List (String × String) := [("!", "!"), ("!!", "tag:yaml.org,2002:")]

/-- The token stands behind the content of a document. -/
def endsDocument : Option Token → Bool
  | none | some (.version ..) | some (.tagHandle ..) | some .documentStart
  | some .documentEnd => true
  | _ => false

/-- The document that the tokens make up; without tokens, it is left out. -/
def ofTokens? (tokens : List Token) : Option Document := do
  let fuel := 3 * tokens.length + 3
  let finish (root : Node) (s : ParseState) : Option Document :=
    if (s.tokens.dropWhile (· == .documentEnd)).isEmpty then
      some { root, anchored := s.anchored, size := s.size }
    else none
  match tokens with
  | [] => some { root := omitted, anchored := [], size := 1 }
  | .version .. :: _ | .tagHandle .. :: _ | .documentStart :: _ =>
    let (handles, tokens) ← directives? tokens false []
    let s : ParseState := { tokens, handles := handles ++ defaultHandles }
    if endsDocument tokens.head? then finish omitted s.count
    else
      let (root, s) ← parse? fuel true false s
      finish root s
  | _ =>
    let (root, s) ← parse? fuel true false { tokens, handles := defaultHandles }
    finish root s

/-- The document that a text holds, if it is well-formed. -/
def ofText? (s : String) : Option Document := do ofTokens? (← Token.ofText? s)

end BurnRate.Yaml.Node
