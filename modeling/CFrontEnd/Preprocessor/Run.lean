import CFrontEnd.Failure
import CFrontEnd.Host.Basic
import CFrontEnd.Preprocessor.Options
import CFrontEnd.Text.Character

/-!
Preprocessing a file or a text with the tool of a host.
-/

namespace CFrontEnd

structure Preprocessor where
  tool : String
  options : PreprocessorOptions := {}
  deriving DecidableEq, Repr

inductive PreprocessProblem
  | noInput (path : String)
  | notStarted (input tool reason : String)
  | failed (input tool : String) (status : Nat) (errors : String)
  deriving DecidableEq, Repr

def PreprocessProblem.failure : PreprocessProblem → Failure
  | .noInput path => { message := "input file not found: " ++ path }
  | .notStarted input tool reason =>
    { message := "failed to preprocess " ++ input
      causes := ["failed to run " ++ tool, reason] }
  | .failed input tool status errors =>
    { message := "failed to preprocess " ++ input
      causes := [tool ++ " exited with exit status: " ++ toString status ++ "\n" ++ errors] }

namespace Preprocessor

def flavor (preprocessor : Preprocessor) : PreprocessorFlavor := .ofTool preprocessor.tool

/-- The arguments of the tool for `input`, which is a path or `-`. -/
def arguments (preprocessor : Preprocessor) (input : String) : List String :=
  preprocessor.options.arguments preprocessor.flavor input

/-- Problems mention the input as `shown`. -/
def run (preprocessor : Preprocessor) (host : Host) (shown input : String)
    (text : Option String) : Except PreprocessProblem String :=
  let tool := preprocessor.tool
  match host.call ⟨tool, preprocessor.arguments input, text⟩ with
  | .notStarted reason => .error (.notStarted shown tool reason)
  | .exited 0 output _ => .ok output
  | .exited status _ errors => .error (.failed shown tool status (trimEnd errors))

def processFile (preprocessor : Preprocessor) (host : Host) (path : String) :
    Except PreprocessProblem String :=
  if (host.read path).isMissing then .error (.noInput path)
  else preprocessor.run host path path none

/-- The tool reads the text from its standard input. -/
def processText (preprocessor : Preprocessor) (host : Host) (name text : String) :
    Except PreprocessProblem String :=
  preprocessor.run host name "-" (some text)

end Preprocessor

end CFrontEnd
