import BurnRate.Expression.Test
import BurnRate.Text.Blank

/-!
Filters: functions that are applied to a value behind a bar.
-/

namespace BurnRate.Expression.Value

/-- A character between marks that have a meaning in markup. -/
def escapeChar (c : Char) : String :=
  match c with
  | '<' => "&lt;"
  | '>' => "&gt;"
  | '&' => "&amp;"
  | '"' => "&quot;"
  | '\'' => "&#x27;"
  | '/' => "&#x2f;"
  | c => String.ofList [c]

/-- The text of a value with its marks escaped; safe texts, numbers and the like stay. -/
def escapedText (v : Value) : String :=
  let escape (s : String) : String := String.join (s.toList.map escapeChar)
  match v with
  | text s safe => if safe then s else escape s
  | undefined _ | none | bool _ | int _ | float _ => v.toText
  | v => escape v.toText

/-- Replaces every occurrence of a pattern; an empty pattern occurs before each character and at
the end. `fuel` bounds the number of steps. -/
def replaceAll (pattern new : List Char) : Nat → List Char → List Char
  | 0, cs => cs
  | fuel + 1, cs =>
    match cs with
    | [] => if pattern.isEmpty then new else []
    | c :: r =>
      if pattern.isEmpty then new ++ c :: replaceAll pattern new fuel r
      else if pattern.isPrefixOf cs then
        new ++ replaceAll pattern new fuel (cs.drop pattern.length)
      else c :: replaceAll pattern new fuel r

/-- ASCII marks that are neither letters nor digits. -/
def isPunctuation (c : Char) : Bool :=
  let n := c.toNat
  (0x21 ≤ n && n ≤ 0x2f) || (0x3a ≤ n && n ≤ 0x40) || (0x5b ≤ n && n ≤ 0x60)
    || (0x7b ≤ n && n ≤ 0x7e)

/-- Each word with a capital at its start and small letters behind it. -/
def titleCase (atStart : Bool) : List Char → List Char
  | [] => []
  | c :: cs =>
    if isPunctuation c || Text.isBlank c then c :: titleCase true cs
    else (if atStart then Text.upperChar c else Text.lowerChar c) ++ titleCase false cs

def capitalize (s : String) : String :=
  match s.toList with
  | [] => ""
  | c :: cs => String.ofList (Text.upperChar c) ++ Text.lower (String.ofList cs)

/-- A text split at a pattern, as often as allowed; `word` holds the characters of the current
piece, the last one first. -/
def splitAt (pattern : List Char) (word : List Char) :
    Nat → Option Nat → List Char → List (List Char)
  | 0, _, cs => [word.reverse ++ cs]
  | fuel + 1, limit?, cs =>
    match cs with
    | [] => [word.reverse]
    | c :: r =>
      if limit? == some 0 then [word.reverse ++ cs]
      else if !pattern.isEmpty && pattern.isPrefixOf cs then
        word.reverse :: splitAt pattern [] fuel (limit?.map (· - 1)) (cs.drop pattern.length)
      else splitAt pattern (c :: word) fuel limit? r

/-- The words of a text, between white space. -/
def words (word : List Char) : List Char → List (List Char)
  | [] => if word.isEmpty then [] else [word.reverse]
  | c :: cs =>
    if Text.isBlank c then if word.isEmpty then words [] cs else word.reverse :: words [] cs
    else words (c :: word) cs

/-- The lines of a text; a line feed at the end starts no further line. -/
def lines (s : String) : List String :=
  let pieces := splitAt ['\n'] [] (s.length + 1) Option.none s.toList
  let pieces := if pieces.getLast? == some [] then pieces.dropLast else pieces
  pieces.map fun cs =>
    String.ofList (if cs.getLast? == some '\r' then cs.dropLast else cs)

/-- The number that a text denotes, cut to a whole one. -/
def intOfText? (s : String) : Option Int :=
  let (negative, ds) := match s.toList with
    | '-' :: ds => (true, ds)
    | '+' :: ds => (false, ds)
    | ds => (false, ds)
  if !ds.isEmpty && ds.all Char.isDigit then
    let n : Int := Decimal.digitsValue ds
    let n := if negative then -n else n
    if inRange n then some n else (Decimal.read? s.toList).map (·.toInt64.toInt)
  else (Decimal.read? s.toList).map (·.toInt64.toInt)

def toInt : Value → Answer Value
  | undefined _ | none => .ok (int 0)
  | bool b => .ok (int (if b then 1 else 0))
  | int n => .ok (int n)
  | float x => .ok (int x.toInt64.toInt)
  | text s _ =>
    match intOfText? s with
    | some n => .ok (int n)
    | Option.none => invalid
  | _ => invalid

def toFloat : Value → Answer Value
  | undefined _ | none => .ok (float 0)
  | text s _ =>
    match Decimal.read? s.toList with
    | some x => .ok (float x)
    | Option.none => invalid
  | v =>
    match v.float? with
    | some x => .ok (float x)
    | Option.none => invalid

def roundTo (v : Value) (places : Int) : Answer Value :=
  match v with
  | int n => .ok (int n)
  | float x =>
    let scale := Float.pow 10 (Float.ofInt places)
    .ok (float ((x * scale).round / scale))
  | _ => invalid

/-- Sorts by keys; equal ones keep their order. -/
def sortOn (key : Value → Value) (descending : Bool) (vs : List Value) : List Value :=
  vs.mergeSort fun a b =>
    let o := (key a).order (key b)
    if descending then o != .lt else o != .gt

/-- The value without regard to upper and lower case. -/
def folded (v : Value) : Value :=
  match v with
  | text s safe => text (Text.lower s) safe
  | v => v

/-- The first of the values with each key. -/
def uniqueOn (key : Value → Value) (vs : List Value) : List Value :=
  (vs.foldl (fun (seen, kept) v =>
    let k := key v
    if seen.any fun w => k.order w == .eq then (seen, kept) else (k :: seen, v :: kept))
    (([], []) : List Value × List Value)).2.reverse

/-- Neighbours with equal keys together. -/
def groupRuns (key : Value → Value) : List Value → List (Value × List Value)
  | [] => []
  | v :: vs =>
    match groupRuns key vs with
    | (k, ws) :: rest =>
      if (key v).same k then (key v, v :: ws) :: rest else (key v, [v]) :: (k, ws) :: rest
    | [] => [(key v, [v])]

/-- Lists of so many items; the last one is filled up if there is a filling. -/
def batches (size : Nat) (fill? : Option Value) : Nat → List Value → List Value
  | 0, _ => []
  | fuel + 1, vs =>
    if vs.isEmpty then []
    else
      let row := vs.take size
      let row := match fill? with
        | some v => row ++ List.replicate (size - row.length) v
        | Option.none => row
      list row :: batches size fill? fuel (vs.drop size)

/-- So many lists of nearly equal lengths; shorter ones are filled up if there is a filling. -/
def columns (count : Nat) (fill? : Option Value) (vs : List Value) : List Value :=
  let short := vs.length / count
  let long := vs.length % count
  (List.range count).map fun i =>
    let start := i * short + min i long
    let size := if i < long then short + 1 else short
    let row := (vs.drop start).take size
    match fill? with
    | some v => list (if long != 0 && long ≤ i then row ++ [v] else row)
    | Option.none => list row

/-- Lines moved to the right, except the first one and blank ones unless demanded. -/
def indented (s : String) (width : Nat) (first blank : Bool) : String :=
  let pad := String.ofList (List.replicate width ' ')
  let s := if s.endsWith "\n" then (s.dropEnd 1).toString else s
  match lines s with
  | [] => if first then pad else ""
  | l :: ls =>
    let move (l : String) : String := if l.isEmpty && !blank then l else pad ++ l
    "\n".intercalate ((if first then move l else l) :: ls.map move)

mutual

/-- The value over several lines. -/
def pretty (depth : Nat) : Value → String
  | list [] => "[]"
  | list (v :: vs) => "[\n" ++ prettyAll depth (v :: vs) ++ pad depth ++ "]"
  | map [] _ => "\x7b\x7d"
  | map (e :: es) _ => "\x7b\n" ++ prettyEntries depth (e :: es) ++ pad depth ++ "\x7d"
  | v => v.shown
where pad (n : Nat) : String := String.ofList (List.replicate (4 * n) ' ')

def prettyAll (depth : Nat) : List Value → String
  | [] => ""
  | v :: vs =>
    String.ofList (List.replicate (4 * depth + 4) ' ') ++ pretty (depth + 1) v ++ ",\n"
      ++ prettyAll depth vs

def prettyEntries (depth : Nat) : List (Value × Value) → String
  | [] => ""
  | (k, v) :: es =>
    String.ofList (List.replicate (4 * depth + 4) ' ') ++ k.shown ++ ": " ++ pretty (depth + 1) v
      ++ ",\n" ++ prettyEntries depth es

end

/-- How sorting filters compare: by an attribute, without regard to case unless demanded. -/
structure SortKey where
  key : Value → Value
  descending : Bool

def sortKey (a : Arguments) (names : List String) : Answer SortKey := do
  let named ← a.named? names
  let sensitive ← optional boolArgument (named.lookup "case_sensitive")
  let descending ← optional boolArgument (named.lookup "reverse")
  let path? ← optional textArgument (named.lookup "attribute")
  let part (v : Value) : Value := path?.elim v v.atPath
  let key (v : Value) : Value := if sensitive.getD false then part v else (part v).folded
  return ⟨key, descending.getD false⟩

/-- The test that a selecting filter applies, with its further arguments. -/
def selection (rest : List Value) (v : Value) : Answer Bool :=
  match rest with
  | [] => .ok v.isTrue
  | name :: args => do test (← textArgument name) v { positional := args }

/-- The values that pass a condition, or do not. -/
def selected (vs : List Value) (keep : Bool) (condition : Value → Answer Bool) :
    Answer Value := do
  let kept ← vs.filterM fun v => do return (← condition v) == keep
  return list kept

/-- Applies a filter. `fuel` bounds how deep filters apply others. -/
def applyFilter (fuel : Nat) (name : String) (v : Value) (a : Arguments) : Answer Value :=
  let textOnly (f : String → String) : Answer Value := do
    noArgument a
    return ofText (f (← textArgument v))
  match name with
  | "upper" => textOnly Text.upper
  | "lower" => textOnly Text.lower
  | "title" => textOnly fun s => String.ofList (titleCase true s.toList)
  | "capitalize" => textOnly capitalize
  | "safe" => do
    noArgument a
    return text (← textArgument v) true
  | "escape" | "e" => do
    noArgument a
    return text v.escapedText true
  | "replace" => do
    let args ← a.atMost 2
    let s ← textArgument v
    let pattern ← textArgument (← required args[0]?)
    let new ← textArgument (← required args[1]?)
    return ofText (String.ofList (replaceAll pattern.toList new.toList (s.length + 1) s.toList))
  | "length" | "count" => do
    noArgument a
    match v.length? with
    | some n => return int n
    | Option.none => invalid
  | "trim" => do
    let args ← a.atMost 1
    let s ← textArgument v
    match ← optional textArgument args[0]? with
    | Option.none => return ofText (Text.trim s)
    | some marks =>
      let isMark (c : Char) : Bool := marks.toList.contains c
      return ofText (String.ofList
        ((s.toList.dropWhile isMark).reverse.dropWhile isMark).reverse)
  | "join" => do
    let args ← a.atMost 1
    let joiner := (← optional textArgument args[0]?).getD ""
    match v.items? with
    | Option.none => invalid
    | some vs =>
      return ofText (vs.foldl (fun s w =>
        if s.isEmpty then w.toText else s ++ joiner ++ w.toText) "")
  | "split" => do
    let args ← a.atMost 2
    let s ← textArgument v
    let pattern? ← optional textArgument args[0]?
    let limit? ← optional intArgument args[1]?
    let limit? : Option Nat := limit?.bind fun n => if 0 ≤ n then some n.toNat else Option.none
    let pieces := match pattern? with
      | Option.none => words [] s.toList
      | some p => splitAt p.toList [] (s.length + 1) limit? s.toList
    return list (pieces.map fun cs => ofText (String.ofList cs))
  | "lines" => do
    noArgument a
    return list ((lines (← textArgument v)).map ofText)
  | "default" | "d" => do
    let args ← a.atMost 2
    let lax := (← optional boolArgument args[1]?).getD false
    if v.isUndefined || (lax && !v.isTrue) then return args[0]?.getD (ofText "") else return v
  | "round" => do
    let args ← a.atMost 1
    roundTo v ((← optional intArgument args[0]?).getD 0)
  | "abs" => do
    noArgument a
    match v with
    | int n => ofInt n.natAbs
    | float x => return float x.abs
    | _ => invalid
  | "int" => do
    noArgument a
    toInt v
  | "float" => do
    noArgument a
    toFloat v
  | "string" => do
    noArgument a
    match v with
    | text .. => return v
    | v => return ofText v.toText
  | "bool" => do
    noArgument a
    return bool v.isTrue
  | "attr" => do
    let key ← oneArgument a
    if v.isMissing then .error .undefinedValue else return (v.part? key).getD nothing
  | "first" | "last" => do
    noArgument a
    match v with
    | undefined _ | none | bool _ | int _ | float _ => invalid
    | v =>
      match v.items? with
      | some vs => return ((if name == "first" then vs.head? else vs.getLast?)).getD nothing
      | Option.none => invalid
  | "min" | "max" => do
    noArgument a
    let vs ← v.iterate
    let better (x y : Value) : Bool := if name == "min" then x.order y == .lt else x.order y != .lt
    return (vs.foldl (fun best? w =>
      match best? with
      | Option.none => some w
      | some b => if better w b then some w else some b) Option.none).getD nothing
  | "sum" => do
    noArgument a
    (← v.iterate).foldlM (fun s w => apply .add s w) (int 0)
  | "list" => do
    noArgument a
    return list (← v.iterate)
  | "reverse" => do
    noArgument a
    match v with
    | text s safe => return text (String.ofList s.toList.reverse) safe
    | undefined _ | none => return v
    | list vs => return list vs.reverse
    | map entries _ => return list (entries.map (·.1)).reverse
    | _ => invalid
  | "sort" => do
    let _ ← a.positionalAtMost 0
    let k ← sortKey a ["case_sensitive", "reverse", "attribute"]
    return list (sortOn k.key k.descending (← v.iterate))
  | "unique" => do
    let _ ← a.positionalAtMost 0
    let k ← sortKey a ["case_sensitive", "attribute"]
    return list (uniqueOn k.key (← v.iterate))
  | "items" => do
    noArgument a
    match v with
    | map entries _ => return list (entries.map fun (k, w) => list [k, w])
    | _ => invalid
  | "dictsort" => do
    let _ ← a.positionalAtMost 0
    let named ← a.named? ["by", "case_sensitive", "reverse"]
    let byPart ← optional textArgument (named.lookup "by")
    let k ← sortKey { a with named := named.filter (·.1 != "by") } ["case_sensitive", "reverse"]
    let side ← match byPart with
      | Option.none | some "key" => Except.ok (0 : Nat)
      | some "value" => Except.ok 1
      | some _ => invalid
    match v with
    | map entries _ =>
      let pairs := entries.map fun (k, w) => list [k, w]
      return list (sortOn (fun p => k.key ((p.part? (int side)).getD nothing)) k.descending pairs)
    | _ => invalid
  | "batch" => do
    let args ← a.atMost 2
    let size ← natArgument (← required args[0]?)
    if size = 0 then invalid
    else
      let vs ← v.iterate
      return list (batches size args[1]? vs.length vs)
  | "slice" => do
    let args ← a.atMost 2
    let count ← natArgument (← required args[0]?)
    if count = 0 then invalid
    else return list (columns count args[1]? (← v.iterate))
  | "indent" => do
    let args ← a.atMost 3
    let s ← textArgument v
    let width ← natArgument (← required args[0]?)
    let first := (← optional boolArgument args[1]?).getD false
    let blank := (← optional boolArgument args[2]?).getD false
    return ofText (indented s width first blank)
  | "groupby" => do
    let args ← a.positionalAtMost 1
    let named ← a.named? ["attribute", "default", "case_sensitive"]
    let path ← textArgument (← required (args[0]? <|> named.lookup "attribute"))
    let sensitive := (← optional boolArgument (named.lookup "case_sensitive")).getD false
    let part (v : Value) : Value :=
      match v.atPath path with
      | undefined _ => (named.lookup "default").getD nothing
      | w => w
    let key (v : Value) : Value := if sensitive then part v else (part v).folded
    let vs := sortOn key false (← v.iterate)
    return list ((groupRuns key vs).map fun (k, ws) =>
      list [(ws.head?.map part).getD k, list ws])
  | "chain" | "zip" => do
    let vss ← (v :: a.positional).mapM iterate
    if name == "chain" then return list vss.flatten
    else
      let shortest := (vss.map List.length).min?.getD 0
      return list ((List.range shortest).map fun i => list (vss.filterMap (·[i]?)))
  | "pprint" => do
    noArgument a
    return ofText (pretty 0 v)
  | "select" | "reject" => do
    let vs ← v.iterate
    selected vs (name == "select") (selection a.positional)
  | "selectattr" | "rejectattr" => do
    let vs ← v.iterate
    let path ← textArgument (← required a.positional.head?)
    selected vs (name == "selectattr") fun w => selection (a.positional.drop 1) (w.atPath path)
  | "map" =>
    match fuel with
    | 0 => invalid
    | fuel + 1 => do
      let vs ← v.iterate
      match a.named.lookup "attribute", a.positional with
      | some path, [] =>
        let _ ← a.named? ["attribute", "default"]
        let path ← textArgument path
        return list (vs.map fun w =>
          match w.atPath path with
          | undefined silent => (a.named.lookup "default").getD (undefined silent)
          | w => w)
      | some _, _ :: _ => invalid
      | Option.none, [] => invalid
      | Option.none, inner :: rest => do
        let inner ← textArgument inner
        let mapped ← vs.mapM fun w => applyFilter fuel inner w { a with positional := rest }
        return list mapped
  | _ => .error .unknownFilter

end BurnRate.Expression.Value
