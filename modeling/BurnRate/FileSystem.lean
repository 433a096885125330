/-!
Files by path: what reading and writing them yields.

A path is resolved name by name. Each name before the last has to be a directory, as has the last
one where a slash follows it.
-/

namespace BurnRate

/-- Why a path cannot be read or written. -/
inductive FileError where
  | notFound
  | notDirectory
  | isDirectory
  | nameTooLong
  | notUtf8
  | containsNul
  | other (text : String)
  deriving DecidableEq, Repr

def FileError.text : FileError → String
  | notFound => "No such file or directory (os error 2)"
  | notDirectory => "Not a directory (os error 20)"
  | isDirectory => "Is a directory (os error 21)"
  | nameTooLong => "File name too long (os error 36)"
  | notUtf8 => "stream did not contain valid UTF-8"
  | containsNul => "file name contained an unexpected NUL byte"
  | other text => text

inductive FileEntry where
  | file (content : ByteArray)
  | directory

/-- Names from the root of the tree. -/
abbrev Location := List String

structure FileSystem where
  /-- Files and directories; where a location occurs twice, the first entry counts. Directories of
  other entries need none of their own. -/
  entries : List (Location × FileEntry) := []
  /-- Where paths start that begin with no slash. -/
  current : Location := []

namespace FileSystem

/-- What is at a location. -/
def at? (fs : FileSystem) (l : Location) : Option FileEntry :=
  match fs.entries.lookup l with
  | some e => some e
  | none =>
    if l.isPrefixOf fs.current || fs.entries.any fun e => l.isPrefixOf e.1 then some .directory
    else none

/-- The longest name and the longest path, in bytes. -/
def maxName : Nat := 255
def maxPath : Nat := 4095

/-- What a path leads to: its location, which may be free. `slash` tells that the path ends in
one. -/
structure Target where
  location : Location
  found? : Option FileEntry
  slash : Bool

/-- Follows names from a directory. -/
def walk (fs : FileSystem) (l : Location) : List String → Except FileError Target
  | [] => .ok ⟨l, some .directory, false⟩
  | name :: names =>
    if name == "" || name == "." then
      if names.isEmpty then .ok ⟨l, some .directory, true⟩ else walk fs l names
    else if name == ".." then walk fs l.dropLast names
    else if maxName < name.utf8ByteSize then .error .nameTooLong
    else
      let next := l ++ [name]
      match fs.at? next, names with
      | found?, [] => .ok ⟨next, found?, false⟩
      | some .directory, names => walk fs next names
      | some (.file _), _ => .error .notDirectory
      | none, names =>
        if names.all (· == "") then .ok ⟨next, none, true⟩ else .error .notFound

/-- Follows a path. -/
def resolve (fs : FileSystem) (path : String) : Except FileError Target :=
  if path.toList.contains (Char.ofNat 0) then .error .containsNul
  else if path.isEmpty then .error .notFound
  else if maxPath < path.utf8ByteSize then .error .nameTooLong
  else
    match path.splitOn "/" with
    | "" :: names => walk fs [] names
    | names => walk fs fs.current names

/-- The text of a file. -/
def readText (fs : FileSystem) (path : String) : Except FileError String := do
  match (← fs.resolve path).found? with
  | none => .error .notFound
  | some .directory => .error .isDirectory
  | some (.file content) =>
    match String.fromUTF8? content with
    | some s => .ok s
    | none => .error .notUtf8

/-- Puts a text into a file, which may be new. -/
def writeText (fs : FileSystem) (path text : String) : Except FileError FileSystem := do
  let t ← fs.resolve path
  match t.found? with
  | some .directory => .error .isDirectory
  | found? =>
    if found?.isNone && t.slash then .error .isDirectory
    else .ok { fs with entries := (t.location, .file text.toUTF8) :: fs.entries }

end FileSystem

end BurnRate
