import BurnRate.Expression.Lexer
import BurnRate.Expression.Syntax

/-!
From tokens to statements.

Reading stops at the first token that does not fit; a malformed token counts only when it is
reached. Expressions and statements nest at most 150 deep; negations and minus signs in a row do not
count.
-/

namespace BurnRate.Expression

/-- Why a text was refused, and the line of the last token before that. -/
structure Refusal where
  cause : Cause
  line : Nat
  deriving DecidableEq, Repr

namespace Parser

structure State where
  tokens : List Located
  /-- Line of the last token that was taken. -/
  line : Nat := 1
  depth : Nat := 0
  blocks : List String := []
  inRoutine : Bool := false

abbrev Parse := StateT State (Except Refusal)

def refuse {α : Type} (cause : Cause := .syntaxError) : Parse α := do
  throw ⟨cause, (← get).line⟩

/-- The next token; none at the end. -/
def peek? : Parse (Option Token) := do
  match (← get).tokens with
  | [] => return none
  | ⟨.malformed cause, _⟩ :: _ => refuse cause
  | t :: _ => return some t.token

/-- Takes the next token. -/
def take? : Parse (Option Token) := do
  let t? ← peek?
  modify fun s =>
    match s.tokens with
    | [] => s
    | t :: ts => { s with tokens := ts, line := t.line }
  return t?

def isSymbol (s : Symbol) : Option Token → Bool
  | some (.symbol t) => s == t
  | _ => false

def isWord (w : String) : Option Token → Bool
  | some (.ident v) => w == v
  | _ => false

def isCloseBlock : Option Token → Bool
  | some .closeBlock => true
  | _ => false

/-- Takes the next token if it satisfies the test. -/
def accept (p : Option Token → Bool) : Parse Bool := do
  if p (← peek?) then
    let _ ← take?
    return true
  else return false

def expect (p : Option Token → Bool) : Parse Unit := do
  if p (← take?) then return () else refuse

def ident : Parse String := do
  match ← take? with
  | some (.ident name) => return name
  | _ => refuse

/-- How deep expressions and statements may nest. -/
def maxDepth : Nat := 150

/-- Parses one level deeper. -/
def deeper {α : Type} (p : Parse α) : Parse α := do
  if maxDepth ≤ (← get).depth then refuse
  else
    modify fun s => { s with depth := s.depth + 1 }
    let a ← p
    modify fun s => { s with depth := s.depth - 1 }
    return a

/-- How tightly operators bind, from the loosest on. -/
inductive Level where
  | disjunction | conjunction | negation | comparison | sum | join | product | power | unary
  deriving DecidableEq

def Level.tighter : Level → Level
  | .disjunction => .conjunction
  | .conjunction => .negation
  | .negation => .comparison
  | .comparison => .sum
  | .sum => .join
  | .join => .product
  | .product => .power
  | .power => .unary
  | .unary => .unary

/-- The operator that a token is at a level. -/
def Level.operator? (l : Level) (t? : Option Token) : Option Operator :=
  match l, t? with
  | .disjunction, some (.ident "or") => some .or
  | .conjunction, some (.ident "and") => some .and
  | .sum, some (.symbol .plus) => some .add
  | .sum, some (.symbol .minus) => some .subtract
  | .join, some (.symbol .tilde) => some .join
  | .product, some (.symbol .star) => some .multiply
  | .product, some (.symbol .slash) => some .divide
  | .product, some (.symbol .doubleSlash) => some .floorDivide
  | .product, some (.symbol .percent) => some .remainder
  | .power, some (.symbol .doubleStar) => some .power
  | _, _ => none

/-- The relation that a token stands for. -/
def relation? : Option Token → Option Relation
  | some (.symbol .equal) => some .equal
  | some (.symbol .notEqual) => some .notEqual
  | some (.symbol .less) => some .less
  | some (.symbol .lessEqual) => some .lessEqual
  | some (.symbol .greater) => some .greater
  | some (.symbol .greaterEqual) => some .greaterEqual
  | some (.ident "in") => some .contained
  | _ => none

/-- The token starts an argument of a test that stands without parentheses. -/
def startsTestArgument : Option Token → Bool
  | some (.ident w) => !(w == "and" || w == "or" || w == "else" || w == "is")
  | some (.text _) | some (.int _) | some (.float _) => true
  | some (.symbol .plus) | some (.symbol .minus) | some (.symbol .openBracket)
  | some (.symbol .openBrace) => true
  | _ => false

mutual

/-- Parses an expression. -/
def expr (fuel : Nat) : Parse Expr :=
  match fuel with
  | 0 => refuse
  | fuel + 1 => deeper do choice fuel (← level fuel .disjunction)

/-- Parses the conditions behind a value. -/
def choice (fuel : Nat) (e : Expr) : Parse Expr :=
  match fuel with
  | 0 => refuse
  | fuel + 1 => do
    if ← accept (isWord "if") then
      let condition ← level fuel .disjunction
      let no? ←
        if ← accept (isWord "else") then
          deeper do some <$> choice fuel (← level fuel .disjunction)
        else pure none
      choice fuel (.choose condition e no?)
    else return e

/-- Parses what binds at least as tightly as a level. -/
def level (fuel : Nat) (l : Level) : Parse Expr :=
  match fuel with
  | 0 => refuse
  | fuel + 1 => do
    match l with
    | .negation =>
      if ← accept (isWord "not") then return .not (← level fuel .negation)
      else level fuel .comparison
    | .comparison =>
      let e ← level fuel .sum
      match ← comparisons fuel [] with
      | [] => return e
      | rest => return .compare e rest
    | .unary =>
      let e ← negation fuel
      filters fuel (← postfixes fuel e)
    | l =>
      let e ← level fuel l.tighter
      operands fuel l e

/-- Parses the comparisons behind a value; those before come last first. -/
def comparisons (fuel : Nat) (before : List (Relation × Expr)) :
    Parse (List (Relation × Expr)) :=
  match fuel with
  | 0 => refuse
  | fuel + 1 => do
    match relation? (← peek?) with
    | some r =>
      let _ ← take?
      comparisons fuel ((r, ← level fuel .sum) :: before)
    | none =>
      if ← accept (isWord "not") then
        expect (isWord "in")
        comparisons fuel ((.notContained, ← level fuel .sum) :: before)
      else return before.reverse

/-- Parses the operators of a level behind their first operand. -/
def operands (fuel : Nat) (l : Level) (left : Expr) : Parse Expr :=
  match fuel with
  | 0 => refuse
  | fuel + 1 => do
    match l.operator? (← peek?) with
    | some op =>
      let _ ← take?
      operands fuel l (.binary op left (← level fuel l.tighter))
    | none => return left

/-- Parses minus signs and what they stand before. -/
def negation (fuel : Nat) : Parse Expr :=
  match fuel with
  | 0 => refuse
  | fuel + 1 => do
    if ← accept (isSymbol .minus) then return .negate (← negation fuel)
    else deeper (primary fuel)

/-- Parses attributes, items, slices and calls of a value. A number behind a dot is an index. -/
def postfixes (fuel : Nat) (e : Expr) : Parse Expr :=
  match fuel with
  | 0 => refuse
  | fuel + 1 => do
    let t? ← peek?
    if isSymbol .dot t? then
      let _ ← take?
      match ← take? with
      | some (.ident name) => postfixes fuel (.attribute e name)
      | some (.int n) => postfixes fuel (.item e (.literal (.int n)))
      | _ => refuse
    else if isSymbol .openBracket t? then
      let _ ← take?
      postfixes fuel (← subscript fuel e)
    else if isSymbol .openParen t? then
      postfixes fuel (.call e (← arguments fuel))
    else return e

/-- Parses an item or a slice behind its open bracket. -/
def subscript (fuel : Nat) (e : Expr) : Parse Expr :=
  match fuel with
  | 0 => refuse
  | fuel + 1 => do
    let start? ← if isSymbol .colon (← peek?) then pure none else some <$> expr fuel
    if ← accept (isSymbol .colon) then
      let t? ← peek?
      let stop? ←
        if isSymbol .closeBracket t? || isSymbol .colon t? then pure none else some <$> expr fuel
      let step? ←
        if ← accept (isSymbol .colon) then
          if isSymbol .closeBracket (← peek?) then pure none else some <$> expr fuel
        else pure none
      expect (isSymbol .closeBracket)
      return .slice e start? stop? step?
    else
      expect (isSymbol .closeBracket)
      match start? with
      | some key => return .item e key
      | none => refuse

/-- Parses filters and tests of a value. -/
def filters (fuel : Nat) (e : Expr) : Parse Expr :=
  match fuel with
  | 0 => refuse
  | fuel + 1 => do
    let t? ← peek?
    if isSymbol .bar t? then
      let _ ← take?
      let name ← ident
      let args ← if isSymbol .openParen (← peek?) then arguments fuel else pure []
      filters fuel (.filter name (some e) args)
    else if isWord "is" t? then
      let _ ← take?
      let negated ← accept (isWord "not")
      let name ← ident
      let t? ← peek?
      let args ←
        if isSymbol .openParen t? then arguments fuel
        else if startsTestArgument t? then
          let arg ← negation fuel
          pure [.positional (← postfixes fuel arg)]
        else pure []
      let test := Expr.test name e args
      filters fuel (if negated then .not test else test)
    else return e

/-- Parses arguments between parentheses. -/
def arguments (fuel : Nat) : Parse (List Argument) :=
  match fuel with
  | 0 => refuse
  | fuel + 1 => do
    expect (isSymbol .openParen)
    moreArguments fuel false []

/-- Parses arguments up to the closing parenthesis. Behind a named argument, all are named; those
before come last first. -/
def moreArguments (fuel : Nat) (named : Bool) (before : List Argument) :
    Parse (List Argument) :=
  match fuel with
  | 0 => refuse
  | fuel + 1 => do
    if ← accept (isSymbol .closeParen) then return before.reverse
    else
      if !before.isEmpty then expect (isSymbol .comma)
      if !before.isEmpty && (← accept (isSymbol .closeParen)) then return before.reverse
      else if ← accept (isSymbol .doubleStar) then
        let e ← expr fuel
        moreArguments fuel true (.spreadNamed e :: before)
      else if ← accept (isSymbol .star) then
        let e ← expr fuel
        moreArguments fuel named (.spread e :: before)
      else
        let e ← expr fuel
        match e with
        | .var name =>
          if ← accept (isSymbol .assign) then
            let value ← level fuel .disjunction
            moreArguments fuel true (.named name value :: before)
          else if named then refuse
          else moreArguments fuel named (.positional e :: before)
        | e => if named then refuse else moreArguments fuel named (.positional e :: before)

/-- Parses a value without operators. -/
def primary (fuel : Nat) : Parse Expr :=
  match fuel with
  | 0 => refuse
  | fuel + 1 => do
    match ← take? with
    | some (.ident name) =>
      match name with
      | "true" | "True" => return .literal (.bool true)
      | "false" | "False" => return .literal (.bool false)
      | "none" | "None" => return .literal .none
      | name => return .var name
    | some (.text s) => return .literal (.text (← moreText fuel s))
    | some (.int n) => return .literal (.int n)
    | some (.float x) => return .literal (.float x)
    | some (.symbol .openBracket) => return .list (← items fuel .closeBracket [])
    | some (.symbol .openBrace) => return .map (← entries fuel [])
    | some (.symbol .openParen) =>
      if ← accept (isSymbol .closeParen) then return .list []
      else
        let e ← expr fuel
        if isSymbol .comma (← peek?) then return .list (← items fuel .closeParen [e])
        else
          expect (isSymbol .closeParen)
          return e
    | _ => refuse

/-- Joins string literals that follow each other. -/
def moreText (fuel : Nat) (s : String) : Parse String :=
  match fuel with
  | 0 => refuse
  | fuel + 1 => do
    match ← peek? with
    | some (.text t) =>
      let _ ← take?
      moreText fuel (s ++ t)
    | _ => return s

/-- Parses items up to a closing bracket; those before come last first. -/
def items (fuel : Nat) (close : Symbol) (before : List Expr) : Parse (List Expr) :=
  match fuel with
  | 0 => refuse
  | fuel + 1 => do
    if ← accept (isSymbol close) then return before.reverse
    else
      if !before.isEmpty then expect (isSymbol .comma)
      if !before.isEmpty && (← accept (isSymbol close)) then return before.reverse
      else items fuel close ((← expr fuel) :: before)

/-- Parses the entries of a map up to its brace; those before come last first. -/
def entries (fuel : Nat) (before : List (Expr × Expr)) : Parse (List (Expr × Expr)) :=
  match fuel with
  | 0 => refuse
  | fuel + 1 => do
    if ← accept (isSymbol .closeBrace) then return before.reverse
    else
      if !before.isEmpty then expect (isSymbol .comma)
      if !before.isEmpty && (← accept (isSymbol .closeBrace)) then return before.reverse
      else
        let key ← expr fuel
        expect (isSymbol .colon)
        entries fuel ((key, ← expr fuel) :: before)

end

/-- Names that cannot be assigned. -/
def reservedNames : List String :=
  ["true", "True", "false", "False", "none", "None", "loop", "self"]

/-- Parses a name that is assigned. -/
def assignedName : Parse String := do
  let name ← ident
  if reservedNames.contains name then refuse else return name

/-- Parses attributes of the target of an assignment. -/
def dotted (fuel : Nat) (e : Expr) : Parse Expr :=
  match fuel with
  | 0 => refuse
  | fuel + 1 => do
    if ← accept (isSymbol .dot) then dotted fuel (.attribute e (← ident)) else return e

/-- The token ends a list of targets. -/
def endsTargets : Option Token → Bool
  | some (.symbol .closeParen) | some .closeVariable | some .closeBlock
  | some (.ident "in") => true
  | _ => false

mutual

/-- Parses a name or targets between parentheses. `attributes` says whether the name may have
attributes. -/
def target (fuel : Nat) (attributes : Bool) : Parse Expr :=
  match fuel with
  | 0 => refuse
  | fuel + 1 => do
    if ← accept (isSymbol .openParen) then
      let e ← targets fuel attributes
      expect (isSymbol .closeParen)
      return e
    else
      let e : Expr := .var (← assignedName)
      if attributes then dotted fuel e else return e

/-- Parses one target or several. -/
def targets (fuel : Nat) (attributes : Bool) : Parse Expr :=
  match fuel with
  | 0 => refuse
  | fuel + 1 => do
    if endsTargets (← peek?) then return .list []
    else moreTargets fuel attributes [] (← target fuel attributes)

/-- Parses the targets behind a given one, if a comma follows it; those before come last first. -/
def moreTargets (fuel : Nat) (attributes : Bool) (before : List Expr) (e : Expr) : Parse Expr :=
  match fuel with
  | 0 => refuse
  | fuel + 1 => do
    if ← accept (isSymbol .comma) then
      if endsTargets (← peek?) then return .list (e :: before).reverse
      else moreTargets fuel attributes (e :: before) (← target fuel attributes)
    else if before.isEmpty then return e
    else return .list (e :: before).reverse

end

/-- Parses a value, or several between commas up to the end of the tag, which are a list; those
before come last first. -/
def values (fuel : Nat) (before : List Expr) : Parse Expr :=
  match fuel with
  | 0 => refuse
  | fuel + 1 => do
    if !before.isEmpty && isCloseBlock (← peek?) then return .list before.reverse
    else
      let e ← expr fuel
      if ← accept (isSymbol .comma) then values fuel (e :: before)
      else if before.isEmpty then return e
      else return .list (e :: before).reverse

/-- Parses a chain of filters up to the end of the tag. -/
def filterChain (fuel : Nat) (before? : Option Expr) : Parse Expr :=
  match fuel with
  | 0 => refuse
  | fuel + 1 => do
    if isCloseBlock (← peek?) then
      match before? with
      | some e => return e
      | none => refuse
    else
      if before?.isSome then expect (isSymbol .bar)
      let name ← ident
      let args ← if isSymbol .openParen (← peek?) then arguments fuel else pure []
      filterChain fuel (some (.filter name before? args))

/-- Parses assignments up to the end of the tag; those before come last first. -/
def assignments (fuel : Nat) (before : List (Expr × Expr)) : Parse (List (Expr × Expr)) :=
  match fuel with
  | 0 => refuse
  | fuel + 1 => do
    if isCloseBlock (← peek?) then return before.reverse
    else
      if !before.isEmpty then expect (isSymbol .comma)
      let e ← target fuel false
      expect (isSymbol .assign)
      assignments fuel ((e, ← expr fuel) :: before)

/-- Parses imported names up to the end of the tag; those before come last first. -/
def importedNames (fuel : Nat) (before : List (String × Option String)) :
    Parse (List (String × Option String)) :=
  match fuel with
  | 0 => refuse
  | fuel + 1 => do
    if isCloseBlock (← peek?) then return before.reverse
    else
      if !before.isEmpty then expect (isSymbol .comma)
      if isCloseBlock (← peek?) then return before.reverse
      else
        let name ← assignedName
        let as? ← if ← accept (isWord "as") then some <$> assignedName else pure none
        importedNames fuel ((name, as?) :: before)

/-- Parses parameters and defaults up to the closing parenthesis; those before come last first. -/
def parameters (fuel : Nat) (params : List String) (defaults : List Expr) :
    Parse (List String × List Expr) :=
  match fuel with
  | 0 => refuse
  | fuel + 1 => do
    if ← accept (isSymbol .closeParen) then return (params.reverse, defaults.reverse)
    else
      if !params.isEmpty then expect (isSymbol .comma)
      if !params.isEmpty && (← accept (isSymbol .closeParen)) then
        return (params.reverse, defaults.reverse)
      else
        let name ← assignedName
        if ← accept (isSymbol .assign) then
          parameters fuel (name :: params) ((← expr fuel) :: defaults)
        else if defaults.isEmpty then parameters fuel (name :: params) defaults
        else refuse

/-- Skips words on the context of an included text; they change nothing. -/
def contextWords : Parse Unit := do
  if ← accept (fun t? => isWord "without" t? || isWord "with" t?) then expect (isWord "context")

mutual

/-- Parses statements up to a tag that starts with one of the words, or to the end of the text.
The word itself is not taken. -/
def statements (fuel : Nat) (ends : List String) (before : List Statement) :
    Parse (List Statement) :=
  match fuel with
  | 0 => refuse
  | fuel + 1 => do
    match ← take? with
    | none => return before.reverse
    | some (.data s) => statements fuel ends (.copy s :: before)
    | some .openVariable =>
      let e ← expr fuel
      match ← take? with
      | some .closeVariable => statements fuel ends (.emit e :: before)
      | _ => refuse
    | some .openBlock =>
      let t? ← peek?
      if ends.any (isWord · t?) then return before.reverse
      else
        let s ← deeper (statement fuel)
        expect isCloseBlock
        statements fuel ends (s :: before)
    | _ => refuse

/-- Parses the body of a statement, from the end of its first tag up to a word. -/
def body (fuel : Nat) (ends : List String) : Parse (List Statement) :=
  match fuel with
  | 0 => refuse
  | fuel + 1 => do
    expect isCloseBlock
    statements fuel ends []

/-- Parses the body of a statement that has one word to end it, and takes the word. -/
def wholeBody (fuel : Nat) (ending : String) : Parse (List Statement) :=
  match fuel with
  | 0 => refuse
  | fuel + 1 => do
    let ss ← body fuel [ending]
    let _ ← take?
    return ss

/-- Parses the condition and the body of a branch, and what stands for it otherwise. -/
def branch (fuel : Nat) : Parse Statement :=
  match fuel with
  | 0 => refuse
  | fuel + 1 => do
    let condition ← level fuel .disjunction
    let yes ← body fuel ["endif", "else", "elif"]
    let t? ← take?
    let no ←
      if isWord "else" t? then wholeBody fuel "endif"
      else if isWord "elif" t? then pure [← branch fuel]
      else pure []
    return .branch condition yes no

/-- Parses the body of a routine. -/
def routineBody (fuel : Nat) (ending : String) : Parse (List Statement) :=
  match fuel with
  | 0 => refuse
  | fuel + 1 => do
    let outer := (← get).inRoutine
    modify fun s => { s with inRoutine := true }
    let ss ← body fuel [ending]
    modify fun s => { s with inRoutine := outer }
    let _ ← take?
    return ss

/-- Parses a statement from its first word on. -/
def statement (fuel : Nat) : Parse Statement :=
  match fuel with
  | 0 => refuse
  | fuel + 1 => do
    match ← take? with
    | some (.ident "for") =>
      let target ← targets fuel false
      expect (isWord "in")
      let items ← level fuel .disjunction
      let filter? ← if ← accept (isWord "if") then some <$> expr fuel else pure none
      let recursive ← accept (isWord "recursive")
      let ss ← body fuel ["endfor", "else"]
      let orElse ← if ← accept (isWord "else") then body fuel ["endfor"] else pure []
      let _ ← take?
      return .loop target items filter? recursive ss orElse
    | some (.ident "if") => branch fuel
    | some (.ident "with") =>
      let assigned ← assignments fuel []
      return .scope assigned (← wholeBody fuel "endwith")
    | some (.ident "set") =>
      let target ← moreTargets fuel true [] (← target fuel true)
      let t? ← peek?
      if isCloseBlock t? || isSymbol .bar t? then
        let filter? ←
          if ← accept (isSymbol .bar) then some <$> filterChain fuel none else pure none
        return .capture target filter? (← wholeBody fuel "endset")
      else
        expect (isSymbol .assign)
        return .assign target (← values fuel [])
    | some (.ident "autoescape") =>
      let mode ← expr fuel
      return .escape mode (← wholeBody fuel "endautoescape")
    | some (.ident "filter") =>
      let filter ← filterChain fuel none
      return .filtered filter (← wholeBody fuel "endfilter")
    | some (.ident "block") =>
      if (← get).inRoutine then refuse
      else
        let name ← ident
        if (← get).blocks.contains name then refuse
        else
          modify fun s => { s with blocks := name :: s.blocks }
          let _ ← accept (isWord "scoped")
          let required ← accept (isWord "required")
          let ss ← wholeBody fuel "endblock"
          match ← peek? with
          | some (.ident trailing) => if trailing == name then let _ ← take? else refuse
          | _ => pure ()
          if !required then return .block name ss
          else if ss.all Statement.isBlank then return .requiredBlock name
          else refuse
    | some (.ident "extends") => return .extend (← expr fuel)
    | some (.ident "include") =>
      let source ← expr fuel
      contextWords
      if ← accept (isWord "ignore") then
        expect (isWord "missing")
        contextWords
        return .include source true
      else return .include source false
    | some (.ident "import") =>
      let source ← expr fuel
      expect (isWord "as")
      return .importAs source (← expr fuel)
    | some (.ident "from") =>
      let source ← expr fuel
      expect (isWord "import")
      return .importFrom source (← importedNames fuel [])
    | some (.ident "macro") =>
      let name ← ident
      expect (isSymbol .openParen)
      let (params, defaults) ← parameters fuel [] []
      return .define ⟨name, params, defaults, ← routineBody fuel "endmacro"⟩
    | some (.ident "call") =>
      let (params, defaults) ←
        if ← accept (isSymbol .openParen) then parameters fuel [] [] else pure ([], [])
      match ← expr fuel with
      | .call callee args =>
        let body ← routineBody fuel "endcall"
        return .callWith callee args ⟨"caller", params, defaults, body⟩
      | _ => refuse
    | some (.ident "do") =>
      match ← expr fuel with
      | .call callee args => return .run callee args
      | _ => refuse
    | _ => refuse

end

end Parser

/-- The statements of an expression text, or the reason why it is refused. -/
def parse (s : String) : Except Refusal (List Statement) :=
  let tokens := Lexer.tokens s
  (Parser.statements (20 * tokens.length + 20) [] []).run' { tokens }

end BurnRate.Expression
