import CFrontEnd.Host.Basic

/-!
A host that is given as a table: some files, and the utilities `echo`, `true` and `false`, whose
output depends on nothing but their arguments.
-/

namespace CFrontEnd

inductive FileEntry
  | directory
  | file (bytes : List Nat)
  | utility
  deriving DecidableEq, Repr

inductive PathProblem
  | noEntry
  | notDirectory
  deriving DecidableEq, Repr

def PathProblem.reason : PathProblem → String
  | .noEntry => "No such file or directory (os error 2)"
  | .notDirectory => "Not a directory (os error 20)"

/-- Entries by the names on the way from the root. Directories on the way need no entry. -/
structure FileTable where
  entries : List (List String × FileEntry)
  deriving DecidableEq, Repr

namespace FileTable

/-- What is at the end of the way. -/
def entry? (table : FileTable) (way : List String) : Option FileEntry :=
  match table.entries.lookup way with
  | some entry => some entry
  | none =>
    if table.entries.any fun (other, _) => way.isPrefixOf other then some .directory else none

/-- Follows the parts of a path from the directory `place`. -/
def follow (table : FileTable) (place : List String) : List String → Except PathProblem (List String)
  | [] => .ok place
  | part :: rest =>
    match table.entry? place with
    | none => .error .noEntry
    | some .directory =>
      if part = "" ∨ part = "." then follow table place rest
      else if part = ".." then follow table place.dropLast rest
      else follow table (place ++ [part]) rest
    | some _ => .error .notDirectory

/-- What a path leads to. Paths that do not begin with a slash start at `place`. -/
def resolve (table : FileTable) (place : List String) (path : String) :
    Except PathProblem FileEntry :=
  let start := if path.toList.head? = some '/' then [] else place
  if path = "" ∨ path.toList.contains '\x00' then .error .noEntry
  else
    match table.follow start (path.splitOn "/") with
    | .ok way => (table.entry? way).elim (.error .noEntry) .ok
    | .error problem => .error problem

def read (table : FileTable) (place : List String) (path : String) : FileState :=
  match table.resolve place path with
  | .ok .directory => .unreadable "Is a directory (os error 21)"
  | .ok (.file bytes) => .readable bytes
  | .ok .utility => .readable []
  | .error _ => .missing

end FileTable

/-- The options of `echo`: words of a dash and some of its three letters. -/
def isEchoOption (word : String) : Bool :=
  match word.toList with
  | '-' :: letters => !letters.isEmpty && letters.all fun letter => ['n', 'e', 'E'].contains letter
  | _ => false

/-- The text of `echo` where no option changes it: the words behind the options with blanks between
them. -/
def echoText (words : List String) : String :=
  " ".intercalate (words.dropWhile isEchoOption) ++ "\n"

def callUtility (call : ToolCall) : ToolResult :=
  match (call.tool.splitOn "/").getLast? with
  | some "echo" => .exited 0 (echoText call.arguments) ""
  | some "false" => .exited 1 "" ""
  | _ => .exited 0 "" ""

/-- A tool without a slash in its name is looked for in the directories for tools. -/
def FileTable.call (table : FileTable) (place : List String) (call : ToolCall) : ToolResult :=
  if (call.tool :: call.arguments).any fun word => word.toList.contains '\x00' then
    .notStarted "nul byte found in provided data"
  else
    let isPath := call.tool.isEmpty || call.tool.toList.contains '/'
    let path := if isPath then call.tool else "/bin/" ++ call.tool
    match table.resolve place path with
    | .ok .utility => callUtility call
    | .ok _ => .notStarted "Permission denied (os error 13)"
    | .error problem => .notStarted problem.reason

/-- What every such host has beside the user's files. -/
def commonEntries : List (List String × FileEntry) :=
  [(["bin", "echo"], .utility), (["bin", "true"], .utility), (["bin", "false"], .utility),
    (["dev", "null"], .file [])]

/-- A host with the files in the directory that commands start from. -/
def Host.ofFiles (files : List (String × List Nat)) (preprocessor? : Option String) : Host :=
  let place := ["home", "work"]
  let entries := files.map fun (name, bytes) =>
    (place ++ (name.splitOn "/").filter (· ≠ ""), FileEntry.file bytes)
  let table : FileTable := ⟨(place, .directory) :: entries ++ commonEntries⟩
  { read := table.read place
    call := table.call place
    preprocessor? := preprocessor? }

end CFrontEnd
