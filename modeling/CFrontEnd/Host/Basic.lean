import CFrontEnd.Text.Unicode

/-!
What the commands see of the machine that they run on: files to read and tools to call. A host is a
value, so what a command does is a function of it.
-/

namespace CFrontEnd

/-- What is found under a path. -/
inductive FileState
  | missing
  | unreadable (reason : String)
  | readable (bytes : List Nat)
  deriving DecidableEq, Repr

namespace FileState

def isMissing (state : FileState) : Bool := state == .missing

/-- The text of a file, or why there is none. -/
def text : FileState → Except String String
  | .missing => .error "No such file or directory (os error 2)"
  | .unreadable reason => .error reason
  | .readable bytes =>
    match decodeUtf8? bytes with
    | some text => .ok text
    | none => .error "stream did not contain valid UTF-8"

end FileState

/-- A tool with its arguments, and the text that it is given to read, if there is one. -/
structure ToolCall where
  tool : String
  arguments : List String
  input : Option String := none
  deriving DecidableEq, Repr

inductive ToolResult
  | notStarted (reason : String)
  | exited (status : Nat) (output errors : String)
  deriving DecidableEq, Repr

/-- `preprocessor?` is the tool that the user has chosen, or one that was found. -/
structure Host where
  read : String → FileState
  call : ToolCall → ToolResult
  preprocessor? : Option String

end CFrontEnd
