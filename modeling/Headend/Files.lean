import Headend.Bytes
import Headend.Text.Split

/-!
# A tree of files

Directories, plain files and FIFOs by their path. All paths begin at the root. A path is followed
name by name: every name but the last has to be a directory, and so has the last one if a slash
comes after it.
-/

namespace Headend

/-- The names on the way from the root. -/
abbrev Path := List String

namespace Path

/-- The parts between the slashes. Empty parts stand for the slashes at the ends and for repeated
ones. -/
def parts (path : String) : List String := splitParts '/' path

/-- A path inside a directory. -/
def join (dir name : String) : String :=
  if name.startsWith "/" then name
  else if dir.isEmpty || dir.endsWith "/" then dir ++ name
  else dir ++ "/" ++ name

end Path

namespace Files

inductive Node where
  | dir
  | file (data : Bytes)
  | fifo
  deriving Repr, DecidableEq

inductive Fault where
  | notFound
  | notDirectory
  | isDirectory
  | alreadyExists
  | invalidName
  | nameTooLong
  | notFifo
  deriving Repr, DecidableEq

/-- Bytes of the longest name. -/
def nameLimit : Nat := 255

/-- Bytes of the longest path. -/
def pathLimit : Nat := 4095

/-- What the system says. -/
def Fault.message : Fault → String
  | notFound => "No such file or directory (os error 2)"
  | notDirectory => "Not a directory (os error 20)"
  | isDirectory => "Is a directory (os error 21)"
  | alreadyExists => "File exists (os error 17)"
  | invalidName => "file name contained an unexpected NUL byte"
  | nameTooLong => "File name too long (os error 36)"
  | notFifo => "not a pipe"

end Files

open Files in
structure Files where
  entries : List (Path × Node)
  deriving Repr, DecidableEq

namespace Files

def empty : Files := ⟨[]⟩

def node? (fs : Files) (p : Path) : Option Node :=
  if p.isEmpty then some .dir else fs.entries.lookup p

def put (fs : Files) (p : Path) (n : Node) : Files := ⟨fs.entries ++ [(p, n)]⟩

/-- Put something where nothing is, in a directory that is there. -/
def putNew (fs : Files) (p : Path) (n : Node) : Except Fault Files :=
  match fs.node? p.dropLast, fs.node? p with
  | none, _ => .error .notFound
  | some (.file _), _ | some .fifo, _ => .error .notDirectory
  | some .dir, some _ => .error .alreadyExists
  | some .dir, none => .ok (fs.put p n)

def erase (fs : Files) (p : Path) : Files := ⟨fs.entries.filter fun e => e.1 != p⟩

/-- Remove a path and all below it. -/
def removeTree (fs : Files) (p : Path) : Files := ⟨fs.entries.filter fun e => !p.isPrefixOf e.1⟩

/-- Make directories below one that has nothing in it. -/
def makeChain (fs : Files) (base : Path) : Path → Files
  | [] => fs
  | name :: rest => makeChain (fs.put (base ++ [name]) .dir) (base ++ [name]) rest

/-- Make a directory and those above it, as far as they are missing. -/
def makeDirs (fs : Files) (base : Path) : Path → Except Fault Files
  | [] => .ok fs
  | name :: rest =>
    if nameLimit < name.utf8ByteSize then .error .nameTooLong else
    match fs.node? (base ++ [name]) with
    | none =>
      if rest.any fun n => nameLimit < n.utf8ByteSize then .error .nameTooLong
      else .ok (fs.makeChain base (name :: rest))
    | some .dir => makeDirs fs (base ++ [name]) rest
    | some _ => .error .notDirectory

/-! ## Limits -/

/-- Whether the system takes a path at all, whatever it leads to. -/
def permit (path : String) : Except Fault Unit :=
  if path.contains '\x00' then .error .invalidName
  else if pathLimit < path.utf8ByteSize then .error .nameTooLong
  else .ok ()

/-- Make a directory, and those above it as far as they are missing, at a path of these names. -/
def makePath (fs : Files) (p : Path) : Except Fault Files := do
  permit ("/".intercalate p)
  fs.makeDirs [] p

/-! ## Following paths -/

/-- A directory on the way. -/
def enter (fs : Files) (base : Path) (name : String) : Except Fault Path :=
  if name.isEmpty || name == "." then .ok base
  else if name == ".." then .ok base.dropLast
  else if nameLimit < name.utf8ByteSize then .error .nameTooLong
  else match fs.node? (base ++ [name]) with
    | none => .error .notFound
    | some .dir => .ok (base ++ [name])
    | some _ => .error .notDirectory

/-- The directory in which the last name of a path lies, and that name; no name if the path itself
can only be a directory. -/
def locate (fs : Files) (path : String) : Except Fault (Path × Option String) := do
  permit path
  if path.isEmpty then throw .notFound
  let parts := Path.parts path
  let dir ← parts.dropLast.foldlM fs.enter []
  let last := parts.getLastD ""
  if last.isEmpty || last == "." || last == ".." then return (← fs.enter dir last, none)
  else if nameLimit < last.utf8ByteSize then throw .nameTooLong
  else return (dir, some last)

/-- What a path leads to. -/
def find (fs : Files) (path : String) : Except Fault (Path × Node) := do
  let (dir, name) ← fs.locate path
  match name with
  | none => return (dir, .dir)
  | some name =>
    match fs.node? (dir ++ [name]) with
    | some n => return (dir ++ [name], n)
    | none => .error .notFound

def isFile (fs : Files) (path : String) : Bool :=
  match fs.find path with
  | .ok (_, .file _) => true
  | _ => false

/-- The content of a plain file. -/
def content? (fs : Files) (path : String) : Option Bytes :=
  match fs.find path with
  | .ok (_, .file data) => some data
  | _ => none

/-! ## Changing the tree -/

/-- Put something where nothing is. -/
def create (fs : Files) (path : String) (n : Node) : Except Fault Files := do
  let (dir, name) ← fs.locate path
  match name with
  | none => .error .alreadyExists
  | some name =>
    if (fs.node? (dir ++ [name])).isSome then .error .alreadyExists
    else return fs.put (dir ++ [name]) n

/-- Write a plain file, in the place of one that is there. -/
def write (fs : Files) (path : String) (data : Bytes) : Except Fault Files := do
  let (dir, name) ← fs.locate path
  match name.map fun name => (dir ++ [name], fs.node? (dir ++ [name])) with
  | none | some (_, some .dir) => .error .isDirectory
  | some (p, _) => return (fs.erase p).put p (.file data)

/-- Remove anything but a directory. -/
def unlink (fs : Files) (path : String) : Except Fault Files := do
  let (p, n) ← fs.find path
  if n = .dir then .error .isDirectory else return fs.erase p

/-- Names in a directory, in order. -/
def names (fs : Files) (dir : Path) : List String :=
  (fs.entries.filterMap fun e =>
    if e.1.dropLast == dir && !e.1.isEmpty then e.1.getLast? else none).mergeSort (· ≤ ·)

end Files

end Headend
