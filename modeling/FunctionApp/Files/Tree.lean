import FunctionApp.Failure
import FunctionApp.Files.Path

/-!
# Trees of files

A tree holds directories and files by the names on the way to them from the root, and a working
directory that relative paths start from. A path is walked name by name, and everything before its
last name must be a directory. A name has at most 255 bytes, and a path 4095. The steps below change
the tree also where they fail: what they did before stays done.
-/

namespace FunctionApp

inductive FileEntry where
  | directory
  | file (bytes : ByteArray)

def FileEntry.isDirectory : FileEntry → Bool
  | .directory => true
  | .file _ => false

/-- The names from the root to an entry. -/
abbrev Place := List String

/-- A tree of files. The root is always a directory. -/
structure FileTree where
  entries : List (Place × FileEntry)
  here : Place

namespace FileTree

/-- Whether a place is the one of a working directory that was removed. It has lost its name but
stays a directory, in which nothing is and nothing can be made. -/
def isNameless (place : Place) : Bool := place.getLast? == some ""

def entry? (tree : FileTree) (place : Place) : Option FileEntry :=
  if place = [] || isNameless place then some .directory else tree.entries.lookup place

/-- With an entry at a place. -/
def set (place : Place) (entry : FileEntry) (tree : FileTree) : FileTree :=
  { tree with entries := (tree.entries.filter fun (p, _) => p ≠ place) ++ [(place, entry)] }

/-- Without the entries whose places satisfy a test. -/
def drop (test : Place → Bool) (tree : FileTree) : FileTree :=
  ⟨tree.entries.filter fun (p, _) => !test p,
    if test tree.here then tree.here.dropLast ++ [""] else tree.here⟩

/-- The names of a path. A slash at its end stands for a single dot, which only a directory has. -/
def names (path : String) : List String :=
  let parts := Text.splitOnChar '/' path
  parts.dropLast.filter (· ≠ "") ++ [if parts.getLast? = some "" then "." else parts.getLastD ""]

/-- The place that a path starts from. -/
def origin (tree : FileTree) (path : String) : Place :=
  if Path.isAbsolute path then [] else tree.here

/-- The place that a name leads to inside a directory. -/
def enter (place : Place) (name : String) : Except FileFault Place :=
  if name = "." then .ok place
  else if name = ".." then .ok place.dropLast
  else if isNameless place then .error .notFound
  else if 255 < name.utf8ByteSize then .error .nameTooLong
  else .ok (place ++ [name])

/-- The place that names lead to. -/
def walk (tree : FileTree) (place : Place) : List String → Except FileFault Place
  | [] => .ok place
  | name :: rest =>
    match tree.entry? place with
    | none => .error .notFound
    | some (.file _) => .error .notDirectory
    | some .directory =>
      match enter place name with
      | .ok next => walk tree next rest
      | .error fault => .error fault

/-- Why a text cannot be a path, if it cannot. -/
def pathFault? (path : String) : Option FileFault :=
  if path.toList.contains '\x00' then some .zeroByte
  else if path = "" then some .notFound
  else if 4095 < path.utf8ByteSize then some .nameTooLong
  else none

/-- The place that the names of a path lead to. -/
def resolve (tree : FileTree) (path : String) (names : List String) : Except FileFault Place :=
  match pathFault? path with
  | some fault => .error fault
  | none => tree.walk (tree.origin path) names

/-- The place that a path leads to, where nothing need be yet. -/
def locate (tree : FileTree) (path : String) : Except FileFault Place :=
  tree.resolve path (names path)

def find? (tree : FileTree) (path : String) : Option FileEntry :=
  match tree.locate path with
  | .ok place => tree.entry? place
  | .error _ => none

def exists_ (tree : FileTree) (path : String) : Bool := (tree.find? path).isSome

def isDirectory (tree : FileTree) (path : String) : Bool :=
  (tree.find? path).any FileEntry.isDirectory

def isFile (tree : FileTree) (path : String) : Bool :=
  match tree.find? path with
  | some (.file _) => true
  | _ => false

def isInside (outer place : Place) : Bool := outer.isPrefixOf place && outer.length < place.length

def isEmptyDirectory (tree : FileTree) (path : String) : Bool :=
  match tree.locate path with
  | .ok place => !tree.entries.any fun (p, _) => isInside place p
  | .error _ => false

def read (tree : FileTree) (path : String) : Except FileFault ByteArray := do
  match tree.entry? (← tree.locate path) with
  | some (.file bytes) => return bytes
  | some .directory => .error .isDirectory
  | none => .error .notFound

def readText (tree : FileTree) (path : String) : Except FileFault String := do
  match String.fromUTF8? (← tree.read path) with
  | some text => return text
  | none => .error .notText

def write (path : String) (bytes : ByteArray) (tree : FileTree) : Except FileFault FileTree := do
  let place ← tree.locate path
  if (tree.entry? place).any FileEntry.isDirectory then .error .isDirectory
  else return tree.set place (.file bytes)

/-- The path without slashes at its end, where a name stands before them. -/
def withoutSlash (path : String) : String :=
  let kept := path.toList.reverse.dropWhile (· = '/')
  if kept.isEmpty then path else String.ofList kept.reverse

def makeDirectory (path : String) (tree : FileTree) : Except FileFault FileTree := do
  let place ← tree.resolve path (names (withoutSlash path))
  if (tree.entry? place).isSome then .error .exists_
  else return tree.set place .directory

/-- The tree without an empty directory. Dots at the end of a path are not the name of an entry of
the directory before them, which must be there all the same. -/
def removeEmptyDirectory (path : String) (tree : FileTree) : Except FileFault FileTree := do
  let steps := names (withoutSlash path)
  let _ ← tree.resolve path (steps.dropLast ++ ["."])
  if steps.getLast? = some "." then .error .invalidArgument
  if steps.getLast? = some ".." then .error .notEmpty
  let place ← tree.resolve path steps
  match tree.entry? place with
  | some .directory =>
    if tree.entries.any fun (p, _) => isInside place p then .error .notEmpty
    else return tree.drop (· = place)
  | some (.file _) => .error .notDirectory
  | none => .error .notFound

/-- The tree without a file. -/
def removeFile (path : String) (tree : FileTree) : Except FileFault FileTree := do
  let place ← tree.locate path
  match tree.entry? place with
  | some (.file _) => return tree.drop (· = place)
  | some .directory => .error .isDirectory
  | none => .error .notFound

end FileTree

/-- A step on a tree of files, which may fail. -/
abbrev Disk (α : Type) := ExceptT Failure (StateM FileTree) α

namespace Disk

variable {α : Type}

def run (step : Disk α) (tree : FileTree) : Except Failure α × FileTree :=
  StateT.run (ExceptT.run step) tree

/-- Runs a step and goes on with its result, also if it fails. -/
def attempt (step : Disk α) : Disk (Except Failure α) := ExceptT.mk (.ok <$> ExceptT.run step)

def look (view : FileTree → α) : Disk α := do return view (← get)

/-- A step that fails as a result does. -/
def ofExcept (result : Except Failure α) : Disk α := ExceptT.mk (pure result)

/-- The result of looking at the tree. -/
def looked (view : FileTree → Except FileFault α) : Disk α := do
  ofExcept ((← look view).mapError .file)

def change (step : FileTree → Except FileFault FileTree) : Disk Unit := do
  set (← looked step)

def write (path : String) (bytes : ByteArray) : Disk Unit := change (FileTree.write path bytes)

def writeText (path text : String) : Disk Unit := write path text.toUTF8

def readText (path : String) : Disk String := looked (·.readText path)

/-- The text of a file, if there is a file. -/
def readText? (path : String) : Disk (Option String) := do
  if ← look (·.isFile path) then return some (← readText path) else return none

/-- Copies a file. The target is emptied before the bytes are read, so that a file copied to itself
is empty. -/
def copy (source target : String) : Disk Unit := do
  let _ ← looked (·.read source)
  write target ByteArray.empty
  write target (← looked (·.read source))

def removeFile (path : String) : Disk Unit := change (FileTree.removeFile path)

/-- Makes a directory and all directories on the way to it, where they are not there yet. -/
def makeDirectories : Nat → String → Disk Unit
  | 0, _ => throw (.file .notFound)
  | fuel + 1, path => do
    if path = "" then return ()
    match (← get).makeDirectory path with
    | .ok tree => set tree
    | .error .notFound =>
      match Path.parent? path with
      | none => throw (.file .notFound)
      | some parent =>
        makeDirectories fuel parent
        match (← get).makeDirectory path with
        | .ok tree => set tree
        | .error fault => unless ← look (·.isDirectory path) do throw (.file fault)
    | .error fault => unless ← look (·.isDirectory path) do throw (.file fault)

/-- Makes a directory and all directories on the way to it, where they are not there yet. -/
def makeDirectory (path : String) : Disk Unit := makeDirectories (path.length + 2) path

/-- Removes a directory with everything in it: first what is inside it, and then the directory
itself. A path that leads through what was inside finds nothing any more, and the directory stays.
-/
def removeDirectory (path : String) : Disk Unit := do
  let place ← looked (·.locate path)
  modify (·.drop (FileTree.isInside place))
  match (← get).removeEmptyDirectory path with
  | .ok tree => set tree
  | .error .notFound => return ()
  | .error fault => throw (.file fault)

end Disk

end FunctionApp
