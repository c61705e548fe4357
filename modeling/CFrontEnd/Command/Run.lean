import CFrontEnd.Command.Options
import CFrontEnd.Grammar.Start
import CFrontEnd.Preprocessor.Run
import CFrontEnd.Tree.Listing

/-!
What the commands do: the text that they write, the problems that they report, and the code that they
end with.
-/

namespace CFrontEnd

/-- `errors` goes to the standard error stream. -/
structure Outcome where
  code : Nat
  output : String := ""
  errors : String := ""
  deriving DecidableEq, Repr

inductive CommandProblem
  | preprocessing (problem : PreprocessProblem)
  | noPreprocessor
  | unreadable (path reason : String)
  | unknownStandard (name : String)
  | problemsFound (diagnostics : Diagnostics)
  | noGenerator (backend : Backend) (artifact : Artifact)
  deriving DecidableEq, Repr

namespace CommandProblem

/-- The tools that are looked for where none is chosen. -/
def usualPreprocessors : List String := ["cpp", "clang", "gcc"]

def failure : CommandProblem → Failure
  | .preprocessing problem => problem.failure
  | .noPreprocessor =>
    { message := "no C preprocessor found (tried " ++ ", ".intercalate usualPreprocessors
        ++ "); set QUILLCC_CPP to choose one" }
  | .unreadable path reason => { message := "failed to read " ++ path, causes := [reason] }
  | .unknownStandard name => { message := "unknown language standard '" ++ name ++ "'" }
  | .problemsFound diagnostics =>
    { message := toString diagnostics.count ++ " error(s) generated" }
  | .noGenerator backend _ => { message := backend.refusal }

/-- What is said in front of the failure. -/
def notes : CommandProblem → String
  | .problemsFound diagnostics => diagnostics.listing
  | .noGenerator backend artifact =>
    "[quillcc] " ++ backend.name ++ " backend: would write " ++ artifact.path ++ "\n"
  | _ => ""

end CommandProblem

def Outcome.ofProblem (output : String) (problem : CommandProblem) : Outcome where
  code := 1
  output := output
  errors := problem.notes ++ "Error: " ++ problem.failure.report ++ "\n"

/-- The problems of a text, if it has any. -/
def Diagnostics.problem? (diagnostics : Diagnostics) : Option CommandProblem :=
  if diagnostics.isEmpty then none else some (.problemsFound diagnostics)

namespace InputOptions

def dialect (input : InputOptions) : Except CommandProblem Dialect :=
  match Dialect.parse? input.standard with
  | some dialect => .ok dialect
  | none => .error (.unknownStandard input.standard)

/-- The text to work on: the file itself if it is preprocessed, and what the preprocessor makes of it
otherwise. -/
def text (input : InputOptions) (host : Host) : Except CommandProblem String :=
  let state := host.read input.path
  if state.isMissing then .error (.preprocessing (.noInput input.path))
  else if input.isPreprocessed then
    match state.text with
    | .ok text => .ok text
    | .error reason => .error (.unreadable input.path reason)
  else
    match host.preprocessor? with
    | none => .error .noPreprocessor
    | some tool =>
      match (Preprocessor.mk tool input.preprocessor).processFile host input.path with
      | .ok text => .ok text
      | .error problem => .error (.preprocessing problem)

/-- The text as a buffer, with the language that it is read in. -/
def source (input : InputOptions) (host : Host) : Except CommandProblem (Language × SourceBuffer) := do
  let dialect ← input.dialect
  let text ← input.text host
  return (cLanguage dialect, ⟨input.path, text⟩)

/-- The tree of a text without problems. -/
def tree (input : InputOptions) (host : Host) : Except CommandProblem Node := do
  let (language, buffer) ← input.source host
  let (node, diagnostics) := language.parseSource buffer
  match diagnostics.problem? with
  | some problem => .error problem
  | none => return node

end InputOptions

def Token.listingLine (token : Token) : String :=
  token.location.text ++ " " ++ token.kind.label ++ " " ++ token.text ++ "\n"

namespace Command

def outcomeOf {α : Type} (result : Except CommandProblem α) (outcome : α → Outcome) : Outcome :=
  match result with
  | .ok value => outcome value
  | .error problem => .ofProblem "" problem

/-- All tokens are written, also those of a text with problems. -/
def tokensOutcome (language : Language) (buffer : SourceBuffer) : Outcome :=
  let (stream, diagnostics) := tokenize language buffer .empty
  let listing := String.join (stream.toList.map Token.listingLine)
  match diagnostics.problem? with
  | some problem => .ofProblem listing problem
  | none => { code := 0, output := listing }

def checkOutcome (path : String) (node : Node) : Outcome :=
  let declarations := node.children.filter fun child => child.kind.isDeclaration
  { code := 0
    errors := "[quillcc] " ++ path ++ ": " ++ toString declarations.length
      ++ " top-level declarations, no errors\n" }

def run (host : Host) : Command → Outcome
  | .preprocess input => outcomeOf (input.text host) fun text => { code := 0, output := text }
  | .tokens input =>
    outcomeOf (input.source host) fun (language, buffer) => tokensOutcome language buffer
  | .tree input => outcomeOf (input.tree host) fun node => { code := 0, output := node.listing }
  | .check input => outcomeOf (input.tree host) (checkOutcome input.path)
  | .build input options =>
    outcomeOf (input.tree host) fun _ =>
      .ofProblem "" (.noGenerator options.backend (options.artifact.plan input.path))

def usage : String :=
  "Usage: quillcc [-v] <preprocess|tokens|ast|check|build> [OPTIONS] <INPUT>\n"

/-- What the program does with its command line. -/
def runArguments (host : Host) (words : List String) : Outcome :=
  match ofArguments words with
  | .ok command => command.run host
  | .error .misuse => { code := 2, errors := usage }
  | .error .help => { code := 0, output := "Quill C front end\n\n" ++ usage }
  | .error .version => { code := 0, output := "quillcc 0.1.0\n" }

/-- The file that the command reads. -/
def path : Command → String
  | .preprocess input | .tokens input | .tree input | .check input | .build input _ => input.path

end Command

end CFrontEnd
