/-!
Names of files: slashes separate the names of directories, and what stands behind the last point of a
file's name tells its sort.
-/

namespace CFrontEnd

/-- A step of a path. `here` counts only where a path begins with it. -/
inductive PathStep
  | root
  | here
  | up
  | name (text : String)
  deriving DecidableEq, Repr

/-- The steps of a path. Repeated slashes and a slash at the end make no step. -/
def pathSteps (path : String) : List PathStep :=
  let parts := path.splitOn "/"
  let start :=
    match parts with
    | "" :: _ :: _ => [PathStep.root]
    | "." :: _ => [PathStep.here]
    | _ => []
  let steps := parts.filterMap fun part =>
    if part = "" ∨ part = "." then none
    else if part = ".." then some PathStep.up
    else some (PathStep.name part)
  start ++ steps

/-- The name of the file, if the path ends in one. -/
def fileName? (path : String) : Option String :=
  match (pathSteps path).getLast? with
  | some (.name text) => some text
  | _ => none

/-- A name in front of its last point, and behind it. A point at the beginning separates nothing. -/
def splitName (name : String) : String × Option String :=
  let reversed := name.toList.reverse
  let behind := reversed.takeWhile (· != '.')
  let front := (reversed.drop (behind.length + 1)).reverse
  if front.isEmpty then (name, none)
  else (String.ofList front, some (String.ofList behind.reverse))

def fileStem? (path : String) : Option String := (fileName? path).map fun name => (splitName name).1

def fileExtension? (path : String) : Option String :=
  (fileName? path).bind fun name => (splitName name).2

end CFrontEnd
