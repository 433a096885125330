import BurnRate.Yaml.Node.Parser
import BurnRate.Yaml.Scalar

/-!
Values of YAML documents: scalars resolved, aliases followed, local tags kept.

A mapping has no key twice. Collections nest at most 128 deep, and aliases are followed at most
a hundred times as often as the document is long.
-/

namespace BurnRate.Yaml

inductive Value where
  | null
  | bool (b : Bool)
  /-- Integers from `-2^63` to `2^64 - 1`. -/
  | int (n : Int)
  | float (x : Float)
  | text (s : String)
  | sequence (items : List Value)
  | mapping (fields : List (Value × Value))
  | tagged (tag : String) (value : Value)
  deriving Repr, Inhabited

namespace Value

mutual

/-- Equality of keys: the order of fields does not matter, and all non-numbers are equal. -/
def same : Value → Value → Bool
  | null, null => true
  | bool a, bool b => a == b
  | int a, int b => a == b
  | float a, float b => a == b || (a.isNaN && b.isNaN)
  | text a, text b => a == b
  | sequence as, sequence bs => sameItems as bs
  | mapping as, mapping bs => as.length == bs.length && sameFields as bs
  | tagged s a, tagged t b => s == t && same a b
  | _, _ => false

def sameItems : List Value → List Value → Bool
  | [], [] => true
  | a :: as, b :: bs => same a b && sameItems as bs
  | _, _ => false

/-- Each of the first fields is among the second ones. -/
def sameFields : List (Value × Value) → List (Value × Value) → Bool
  | [], _ => true
  | (k, v) :: as, bs => bs.any (fun b => same k b.1 && same v b.2) && sameFields as bs

end

mutual

/-- The values are the same, the order of their fields included. -/
def isEqual : Value → Value → Bool
  | null, null => true
  | bool a, bool b => a == b
  | int a, int b => a == b
  | float a, float b => decide (a = b)
  | text a, text b => a == b
  | sequence as, sequence bs => areEqualItems as bs
  | mapping as, mapping bs => areEqualFields as bs
  | tagged s a, tagged t b => s == t && isEqual a b
  | _, _ => false

def areEqualItems : List Value → List Value → Bool
  | [], [] => true
  | a :: as, b :: bs => isEqual a b && areEqualItems as bs
  | _, _ => false

def areEqualFields : List (Value × Value) → List (Value × Value) → Bool
  | [], [] => true
  | (j, a) :: as, (k, b) :: bs => isEqual j k && isEqual a b && areEqualFields as bs
  | _, _ => false

end

mutual

theorem isEqual_iff (v w : Value) : isEqual v w = true ↔ v = w := by
  match v with
  | sequence as =>
    cases w with
    | sequence bs => simp [isEqual, areEqualItems_iff as bs]
    | _ => simp [isEqual]
  | mapping as =>
    cases w with
    | mapping bs => simp [isEqual, areEqualFields_iff as bs]
    | _ => simp [isEqual]
  | tagged s a =>
    cases w with
    | tagged t b => simp [isEqual, isEqual_iff a b]
    | _ => simp [isEqual]
  | null | bool a | int a | float a | text a => cases w <;> simp [isEqual]

theorem areEqualItems_iff (as bs : List Value) : areEqualItems as bs = true ↔ as = bs := by
  match as, bs with
  | [], [] => simp [areEqualItems]
  | [], _ :: _ => simp [areEqualItems]
  | _ :: _, [] => simp [areEqualItems]
  | a :: as, b :: bs => simp [areEqualItems, isEqual_iff a b, areEqualItems_iff as bs]

theorem areEqualFields_iff (as bs : List (Value × Value)) :
    areEqualFields as bs = true ↔ as = bs := by
  match as, bs with
  | [], [] => simp [areEqualFields]
  | [], _ :: _ => simp [areEqualFields]
  | _ :: _, [] => simp [areEqualFields]
  | (j, a) :: as, (k, b) :: bs =>
    simp [areEqualFields, isEqual_iff j k, isEqual_iff a b, areEqualFields_iff as bs]

end

instance : DecidableEq Value := fun v w => decidable_of_decidable_of_iff (isEqual_iff v w)

/-- The value without its local tags. -/
def untagged : Value → Value
  | tagged _ v => v.untagged
  | v => v

mutual

/-- There is a local tag on the value or inside of it. -/
def hasTag : Value → Bool
  | tagged _ _ => true
  | sequence items => anyTag items
  | mapping fields => anyFieldTag fields
  | _ => false

def anyTag : List Value → Bool
  | [] => false
  | v :: vs => v.hasTag || anyTag vs

def anyFieldTag : List (Value × Value) → Bool
  | [] => false
  | (k, v) :: fields => k.hasTag || v.hasTag || anyFieldTag fields

end

end Value

/-- The local part of a tag, without its mark; core tags have none. -/
def localTag? (tag? : Option String) : Option String :=
  match tag?.map String.toList with
  | some ('!' :: cs) => some (String.ofList cs)
  | _ => none

/-- Integers that values hold. -/
def intValue? (n : Int) : Option Value :=
  if -0x8000000000000000 ≤ n && n < 0x10000000000000000 then some (.int n) else none

/-- The value of a plain scalar without a tag. -/
def plainValue? (text : String) : Option Value :=
  match Scalar.ofPlain text.toList with
  | .null => some .null
  | .bool b => some (.bool b)
  | .int n => intValue? n
  | .float x => some (.float x)
  | .text s => some (.text s)

/-- The value of a scalar. A core tag demands its type, a local one is put around the value. -/
def scalarValue? (tag? : Option String) (plain : Bool) (text : String) : Option Value :=
  let untagged : Option Value := if plain then plainValue? text else some (.text text)
  match localTag? tag? with
  | some "" => none
  | some tag => untagged.map (.tagged tag)
  | none =>
    match tag? with
    | none => untagged
    | some "tag:yaml.org,2002:bool" => (bool? text.toList).map .bool
    | some "tag:yaml.org,2002:int" => (int? text.toList).bind intValue?
    | some "tag:yaml.org,2002:float" => (float? text.toList).map .float
    | some "tag:yaml.org,2002:null" => if isNull text.toList then some .null else none
    | some _ => some (.text text)

/-- How deep collections may nest. -/
def maxDepth : Nat := 128

/-- Reading of a document: the state counts the aliases that were followed. -/
abbrev Reading := ReaderT Document (StateT Nat Option)

namespace Reading

def fail {α : Type} : Reading α := fun _ _ => none

/-- The node itself, or the node that an alias stands for. -/
def follow : Node → Reading Node
  | .alias number => fun d n =>
    if 100 * d.size ≤ n then none else (d.target? number).map (·, n + 1)
  | node => pure node

end Reading

namespace Value

/-- Puts a collection inside its local tag. -/
def withTag (tag? : Option String) (v : Value) : Reading Value :=
  match localTag? tag? with
  | some "" => Reading.fail
  | some tag => pure (.tagged tag v)
  | none => pure v

/-- Appends a field whose key is new. -/
def addField (fields : List (Value × Value)) (field : Value × Value) :
    Reading (List (Value × Value)) :=
  if fields.any (·.1.same field.1) then Reading.fail else pure (field :: fields)

/-- The value of a node below which collections may still nest as deep as given. -/
def ofNode (depth : Nat) (node : Node) : Reading Value := do
  match ← Reading.follow node with
  | .scalar tag? plain s => fun _ n => (scalarValue? tag? plain s).map (·, n)
  | .sequence tag? items =>
    match depth with
    | 0 => Reading.fail
    | depth + 1 => do
      let values ← items.mapM (ofNode depth)
      withTag tag? (.sequence values)
  | .mapping tag? fields =>
    match depth with
    | 0 => Reading.fail
    | depth + 1 => do
      let fields ← fields.foldlM (fun fields (k, v) => do
        addField fields (← ofNode depth k, ← ofNode depth v)) []
      withTag tag? (.mapping fields.reverse)
  | .alias _ => Reading.fail

/-- The value that a text holds, if it is a well-formed document. -/
def ofText? (s : String) : Option Value := do
  let d ← Node.ofText? s
  ((ofNode maxDepth d.root).run d 0).map (·.1)

end Value

end BurnRate.Yaml
