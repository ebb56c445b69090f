namespace Schematic

/-- Why a file cannot be read or written. -/
inductive FileFault where
  | notFound
  | isDirectory
  | notADirectory
  | nameTooLong
  | notText
  | other (text : String)
deriving DecidableEq, Repr

def FileFault.text : FileFault → String
  | notFound => "No such file or directory (os error 2)"
  | isDirectory => "Is a directory (os error 21)"
  | notADirectory => "Not a directory (os error 20)"
  | nameTooLong => "File name too long (os error 36)"
  | notText => "stream did not contain valid UTF-8"
  | other text => text

/-- The text of bytes, if they are UTF-8. -/
def textOf (bytes : ByteArray) : Except FileFault String :=
  match String.fromUTF8? bytes with
  | some s => .ok s
  | none => .error .notText

/-- Where a file or a directory stands: the names that lead there from the current directory. Two
dots stand in front for each level above it, and a slash for the top. -/
abbrev Place := List String

namespace Place

/-- The current directory. -/
def here : Place := []

/-- The directory above all others. -/
def top : Place := ["/"]

/-- The directory above; the top is above itself. -/
def parent (p : Place) : Place :=
  if p = top then top
  else if p = here ∨ p.getLast? = some ".." then p ++ [".."]
  else p.dropLast

end Place

/-- The files by their places. -/
structure Disk where
  files : List (Place × ByteArray)

namespace Disk

/-- The bytes that a name may have. -/
def nameLimit : Nat := 255

/-- The bytes that a path may have. -/
def pathLimit : Nat := 4095

/-- The parts of a path between its slashes. -/
def parts (path : String) : List String :=
  (path.splitOn "/").filter (· ≠ "")

/-- The directory that a path starts from. -/
def start (path : String) : Place :=
  if path.toList.head? = some '/' then .top else .here

/-- A path that can only be a directory. -/
def endsInSlash (path : String) : Bool :=
  path.toList.getLast? == some '/'

def isFile (d : Disk) (p : Place) : Bool :=
  (d.files.lookup p).isSome

/-- The current directory, those above it, the top, and those that hold files. -/
def isDirectory (d : Disk) (p : Place) : Bool :=
  p.all (· == "..") || p == .top || d.files.any fun f => p.isPrefixOf f.1 && p != f.1

/-- The place of a name in a directory. -/
def child (dir : Place) (name : String) : Except FileFault Place :=
  if nameLimit < name.utf8ByteSize then .error .nameTooLong else .ok (dir ++ [name])

/-- The directory that a part leads to: one dot stays, and two go back. -/
def enter (d : Disk) (dir : Place) (part : String) : Except FileFault Place := do
  if part = "." then return dir
  if part = ".." then return dir.parent
  let p ← child dir part
  if d.isDirectory p then return p
  throw (if d.isFile p then .notADirectory else .notFound)

/-- The last part of a path and the directory it is looked up in; none if the path ends in a dot
part or is the top, and so leads to a directory. -/
def entry? (d : Disk) (path : String) : Except FileFault (Option (Place × String)) := do
  if path = "" then throw .notFound
  if pathLimit < path.utf8ByteSize then throw .nameTooLong
  let names := parts path
  let dir ← names.dropLast.foldlM d.enter (start path)
  return (names.getLast?.filter fun name => name ≠ "." ∧ name ≠ "..").map (dir, ·)

def read (d : Disk) (path : String) : Except FileFault ByteArray := do
  match ← d.entry? path with
  | none => throw .isDirectory
  | some (dir, name) =>
    let p ← child dir name
    match d.files.lookup p with
    | some bytes => if endsInSlash path then throw .notADirectory else return bytes
    | none => throw (if d.isDirectory p then .isDirectory else .notFound)

def readText (d : Disk) (path : String) : Except FileFault String := do
  textOf (← d.read path)

/-- Makes a file or replaces it. -/
def put (d : Disk) (p : Place) (bytes : ByteArray) : Disk :=
  if d.isFile p then ⟨d.files.map fun f => if f.1 == p then (p, bytes) else f⟩
  else ⟨d.files ++ [(p, bytes)]⟩

/-- Writes a file, whose directory must be there. A slash at the end asks for a directory, whether
or not a file has the name. -/
def write (d : Disk) (path : String) (bytes : ByteArray) : Except FileFault Disk := do
  match ← d.entry? path with
  | none => throw .isDirectory
  | some (dir, name) =>
    if endsInSlash path then throw .isDirectory
    let p ← child dir name
    if d.isDirectory p then throw .isDirectory
    return d.put p bytes

end Disk

end Schematic
