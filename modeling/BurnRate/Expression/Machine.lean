import BurnRate.Expression.Filter
import BurnRate.Expression.Free

/-!
What is known while a text is rendered: names by frame, and what values refer to by number.
-/

namespace BurnRate.Expression

/-- Names with values; the first entry of a name counts. -/
abbrev Names := List (String × Value)

namespace Names

/-- Gives a name a value; its former one is dropped. -/
def insert (ns : Names) (name : String) (v : Value) : Names :=
  (name, v) :: ns.filter (·.1 != name)

theorem lookup_insert_self (ns : Names) (name : String) (v : Value) :
    (ns.insert name v).lookup name = some v := by
  simp [insert]

theorem lookup_insert_of_ne (ns : Names) {name other : String} (v : Value) (h : other ≠ name) :
    (ns.insert name v).lookup other = ns.lookup other := by
  have hb : (other == name) = false := by simpa using h
  suffices (ns.filter (·.1 != name)).lookup other = ns.lookup other by
    simp [insert, List.lookup_cons, hb, this]
  induction ns with
  | nil => rfl
  | cons e es ih =>
    obtain ⟨k, w⟩ := e
    by_cases hk : k = name
    · simp [hk, List.lookup_cons, hb, ih]
    · simp [hk, List.lookup_cons, ih]

end Names

/-- What a loop does with each item. -/
structure LoopForm where
  target : Expr
  body : List Statement

/-- A loop that runs, as the name `loop` shows it. -/
structure Running where
  state : Value
  depth : Nat
  /-- What a call of the loop repeats. -/
  again? : Option LoopForm

/-- Names that hold together. -/
structure Frame where
  names : Names := []
  loop? : Option Running := none
  /-- The closure of the routine that runs in this frame. -/
  captured? : Option Nat := none
  /-- The closure of routines that are defined in this frame. -/
  closure? : Option Nat := none

/-- A part of the text that is rendered by a call. -/
inductive Task where
  | routine (r : Routine) (values : List Value)
  | statements (body : List Statement)
  | loop (form : LoopForm) (items : Value)

structure Machine where
  /-- The innermost frame comes first. -/
  frames : List Frame
  /-- Depth of the calls around the frames. -/
  outerDepth : Nat := 0
  closures : List Names := []
  routines : List (Routine × Option Nat) := []
  records : List Names := []
  loops : Nat := 0
  /-- What loops were last asked about a change, by their number. -/
  lastAsked : List (Nat × List Value) := []
  escaping : Bool := false
  blocks : List (String × List Statement) := []
  /-- The text that the filter of a block applies to. -/
  piped : Value := .nothing
  out : String := ""

abbrev Eval := StateT Machine Answer

/-- Frames and calls nest so deep at most. -/
def maxDepth : Nat := 500

namespace Machine

def depth (m : Machine) : Nat := m.outerDepth + m.frames.length

/-- A name as a frame knows it. -/
def inFrame? (m : Machine) (f : Frame) (name : String) : Option Value :=
  f.names.lookup name
    <|> (if name == "loop" then f.loop?.map (·.state) else Option.none)
    <|> (f.captured?.bind (m.closures[·]?)).bind (·.lookup name)

/-- A name as the innermost frame that has it knows it, or a function for all texts. -/
def lookup? (m : Machine) (name : String) : Option Value :=
  m.frames.findSome? (m.inFrame? · name)
    <|> (if ["range", "dict", "namespace", "debug"].contains name then some (.builtin name)
      else Option.none)

/-- The innermost loop. -/
def running? (m : Machine) : Option Running := m.frames.findSome? (·.loop?)

/-- Sets a name in the innermost frame, and for the routines that were defined there. -/
def store (m : Machine) (name : String) (v : Value) : Machine :=
  match m.frames with
  | [] => m
  | f :: fs =>
    let closures := match f.closure? with
      | some id => m.closures.modify id (·.insert name v)
      | Option.none => m.closures
    { m with closures, frames := { f with names := f.names.insert name v } :: fs }

/-- Gives the innermost frame a closure that holds the names as they are now. -/
def enclose (m : Machine) (names : List String) : Machine :=
  match m.frames with
  | [] => m
  | f :: fs =>
    if names.isEmpty then m
    else
      let (id, m) := match f.closure? with
        | some id => (id, m)
        | Option.none =>
          (m.closures.length, { m with
            closures := m.closures ++ [[]]
            frames := { f with closure? := some m.closures.length } :: fs })
      let capture (held : Names) (name : String) : Names :=
        if (held.lookup name).isSome then held
        else (name, (m.lookup? name).getD .nothing) :: held
      { m with closures := m.closures.modify id (names.foldl capture) }

end Machine

namespace Eval

def lookup? (name : String) : Eval (Option Value) := return (← get).lookup? name

def store (name : String) (v : Value) : Eval Unit := modify (·.store name v)

def write (s : String) : Eval Unit := modify fun m => { m with out := m.out ++ s }

/-- A record as the map of its attributes; every other value as it is. -/
def opened (v : Value) : Eval Value := do
  match v with
  | .record id =>
    return .mapOf (((← get).records[id]?.getD []).map fun (name, w) => (.ofText name, w))
  | v => return v

/-- Writes a value; marks of markup are escaped where that is demanded. -/
def emit (v : Value) : Eval Unit := do
  let v ← opened v
  if v.isMissing then throw .undefinedValue
  else write (if (← get).escaping then v.escapedText else v.toText)

/-- The text that an action writes, as a value. -/
def captured (body : Eval Unit) : Eval Value := do
  let outer := (← get).out
  modify fun m => { m with out := "" }
  body
  let m ← get
  set { m with out := outer }
  return .text m.out m.escaping

/-- Runs an action in a frame of its own. -/
def inFrame {α : Type} (f : Frame) (body : Eval α) : Eval α := do
  if maxDepth < (← get).depth then throw .invalidOperation
  else
    modify fun m => { m with frames := f :: m.frames }
    let a ← body
    modify fun m => { m with frames := m.frames.drop 1 }
    return a

/-- Runs the body of a routine, which sees no other frame and no block. -/
def inRoutine (f : Frame) (body : Eval Unit) : Eval Value := do
  let m ← get
  if maxDepth < m.depth + 5 then throw .invalidOperation
  else
    set { m with frames := [f], outerDepth := m.depth + 4, blocks := [] }
    let v ← captured body
    modify fun n => { n with frames := m.frames, outerDepth := m.outerDepth, blocks := m.blocks }
    return v

/-- A routine as a value, with the names that it needs from here. -/
def routine (r : Routine) : Eval Value := do
  modify (·.enclose (r.freeNames.filter (· != "caller")))
  let m ← get
  set { m with routines := m.routines ++ [(r, m.frames.head?.bind (·.closure?))] }
  return .routine m.routines.length r.name

/-- An attribute or item; what is missing has none. -/
def part (v key : Value) (found? : Option Value) : Eval Value := do
  let m ← get
  let found? := match v, key with
    | .record id, .text name _ => m.records[id]?.bind (·.lookup name)
    | _, _ => found?
  match found? with
  | some w => return w
  | Option.none => if v.isUndefined then throw .undefinedValue else return .nothing

/-- Sets an attribute of a record. -/
def setAttribute (v : Value) (name : String) (w : Value) : Eval Unit :=
  match v with
  | .record id => modify fun m => { m with records := m.records.modify id (·.insert name w) }
  | _ => throw .invalidOperation

/-- The values of a list or the keys of a map, if there are so many. -/
def unpack (v : Value) (n : Nat) : Eval (List Value) := do
  let vs ← match v with
    | .list vs => pure vs
    | .map entries _ => pure (entries.map (·.1))
    | _ => throw .cannotUnpack
  if vs.length = n then return vs else throw .cannotUnpack

/-- Looks for an included text. There is none, so a name that has to be there is an error. -/
def includeText (v : Value) (ignoreMissing : Bool) : Eval Unit := do
  let choices := match v with
    | .list vs => vs
    | v => [v]
  for v in choices do
    match v with
    | .text .. => pure ()
    | _ => throw .invalidOperation
  if choices.isEmpty || ignoreMissing then return () else throw .templateNotFound

/-- Looks for the text that this one extends. -/
def extendText (v : Value) : Eval Unit :=
  match v with
  | .text s _ => throw (if s == "<string>" then .invalidOperation else .templateNotFound)
  | _ => throw .invalidOperation

/-- Whether marks of markup are escaped, for a demanded mode. -/
def escapeMode (v : Value) : Eval Bool :=
  match v with
  | .text "html" _ => return true
  | .text "none" _ => return false
  | .text _ _ => throw .invalidOperation
  | v => return v.same (.bool true)

end Eval

end BurnRate.Expression
