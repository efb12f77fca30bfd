import FunctionApp.Command.Run

/-!
# The program

The command works on a copy of the files that it can reach: the working directory, and the
directories that its arguments name. What it changed in the copy is then done to the files
themselves. It starts no other program, so that native executables are left to others.
-/

open System (FilePath)

namespace FunctionApp.Main

/-- The names on the way from the root to an absolute path. -/
def placeOf (path : FilePath) : Place := path.components.filter (· ≠ "")

/-- The absolute path of a place. -/
def pathOf (place : Place) : String := "/" ++ String.intercalate "/" place

/-- A directory and everything in it. -/
partial def loadDirectory (path : FilePath) : IO (List (Place × FileEntry)) := do
  let mut entries := [(placeOf path, FileEntry.directory)]
  for entry in ← path.readDir do
    if ← entry.path.isDir then
      entries := entries ++ (← loadDirectory entry.path)
    else
      entries := entries ++ [(placeOf entry.path, .file (← IO.FS.readBinFile entry.path))]
  return entries

/-- The directory that an argument names, or that holds the file that it names. -/
def directoryOf? (arg : String) : IO (Option FilePath) := do
  let path : FilePath := arg
  if arg = "" || !(← path.pathExists) then return none
  let path ← IO.FS.realPath path
  if ← path.isDir then return some path else return path.parent

/-- With an entry, unless its place is taken. -/
def withEntry (tree : FileTree) (place : Place) (entry : FileEntry) : FileTree :=
  if (tree.entry? place).isNone then tree.set place entry else tree

/-- With a directory of the disk, everything in it, and the directories on the way to it. -/
def withDirectory (tree : FileTree) (path : FilePath) : IO FileTree := do
  let place := placeOf path
  let parents := (List.range place.length).map fun n => (place.take n, FileEntry.directory)
  let entries ← loadDirectory path
  return (parents ++ entries).foldl (fun tree (place, entry) => withEntry tree place entry) tree

/-- The files that a command with some arguments can reach. -/
def load (args : List String) : IO FileTree := do
  let here ← IO.FS.realPath (← IO.currentDir)
  let mut tree ← withDirectory ⟨[], placeOf here⟩ here
  for arg in args do
    if let some path ← directoryOf? arg then
      unless tree.here.isPrefixOf (placeOf path) do
        tree ← withDirectory tree path
  return tree

/-- Whether an entry is a directory like another one, or a file with the same bytes. -/
def isUnchanged : FileEntry → FileEntry → Bool
  | .directory, .directory => true
  | .file one, .file other => one.toList == other.toList
  | _, _ => false

/-- Does to the disk what has changed between two trees. -/
def store (before after : FileTree) : IO Unit := do
  let gone := before.entries.filter fun (place, entry) =>
    match after.entry? place with
    | none => true
    | some now => now.isDirectory != entry.isDirectory
  for (place, entry) in gone.mergeSort fun a b => b.1.length ≤ a.1.length do
    if entry.isDirectory then IO.FS.removeDir (pathOf place) else IO.FS.removeFile (pathOf place)
  for (place, entry) in after.entries.mergeSort fun a b => a.1.length ≤ b.1.length do
    unless (before.entry? place).any (isUnchanged entry) do
      match entry with
      | .directory => IO.FS.createDirAll (pathOf place)
      | .file bytes => IO.FS.writeBinFile (pathOf place) bytes

end FunctionApp.Main

open FunctionApp in
def main (args : List String) : IO UInt32 := do
  let before ← Main.load args
  let (outcome, after) := CommandLine.run noRunner args before
  Main.store before after
  IO.print outcome.stdout
  IO.eprint outcome.stderr
  return outcome.code.toUInt32
