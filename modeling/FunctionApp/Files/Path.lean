import FunctionApp.Text.Split

/-!
# Paths

A path is a text whose parts are separated by slashes. Empty parts do not count, nor do single dots
other than one at the start.
-/

namespace FunctionApp.Path

def isAbsolute (path : String) : Bool := path.toList.head? == some '/'

/-- A path seen from another one. An empty path after another one leaves a slash at its end. -/
def join (base path : String) : String :=
  if isAbsolute path then path
  else if base = "" || base.toList.getLast? == some '/' then base ++ path
  else base ++ "/" ++ path

/-- Parts in reverse, without the ones at the end that do not count. The first part of a path is the
last one here, and always counts. -/
def dropIdle : List String → List String
  | [] => []
  | [first] => [first]
  | part :: rest => if part = "" || part = "." then dropIdle rest else part :: rest

/-- The parts of a path in reverse, without the ones at its end that do not count. The path of the
root has the empty part alone. -/
def reverseParts (path : String) : List String :=
  if path = "" then [] else dropIdle (Text.splitOnChar '/' path).reverse

/-- The text of parts in reverse. -/
def ofReverseParts (parts : List String) : String :=
  if parts = [""] then "/" else String.intercalate "/" parts.reverse

/-- The path without its last part. The root and the empty path have none. -/
def parent? (path : String) : Option String :=
  match reverseParts path with
  | [] | [""] => none
  | _ :: rest => some (ofReverseParts (dropIdle rest))

/-- The last part of a path, if it is a name. -/
def fileName? (path : String) : Option String :=
  match reverseParts path with
  | [] => none
  | part :: _ => if part = "" || part = "." || part = ".." then none else some part

/-- A name without its last extension. A dot at its start begins none. -/
def stem (name : String) : String :=
  let kept := (name.toList.reverse.dropWhile (· ≠ '.')).drop 1
  if kept.isEmpty then name else String.ofList kept.reverse

end FunctionApp.Path
