import CFrontEnd.Artifact
import CFrontEnd.Command.Arguments
import CFrontEnd.Preprocessor.Options

/-!
The commands of the front end and how they are written on the command line.
-/

namespace CFrontEnd

/-- What every command is told about its input. -/
structure InputOptions where
  path : String
  preprocessor : PreprocessorOptions := {}
  standard : String := "gnu17"
  isPreprocessed : Bool := false
  deriving DecidableEq, Repr

/-- What a code generator is told. -/
structure BuildOptions where
  artifact : ArtifactRequest := {}
  optimization : Option String := none
  hasDebugInformation : Bool := false
  backend : Backend := .llvm
  deriving DecidableEq, Repr

inductive Command
  | preprocess (input : InputOptions)
  | tokens (input : InputOptions)
  | tree (input : InputOptions)
  | check (input : InputOptions)
  | build (input : InputOptions) (build : BuildOptions)
  deriving DecidableEq, Repr

inductive CommandOption
  | define
  | undefine
  | includeDirectory
  | systemDirectory
  | target
  | standard
  | preprocessed
  | verbose
  | output
  | emitAssembly
  | compileOnly
  | emitLlvm
  | optimization
  | debugInformation
  | backend
  | help
  | version
  deriving DecidableEq, Repr

namespace CommandOption

def isNotEmpty (value : String) : Bool := !value.isEmpty

/-- The options that stand in front of the command and among its own. -/
def commonRules : List (OptionRule CommandOption) :=
  [ { name := .verbose, short := some 'v', long := some "verbose" },
    { name := .help, short := some 'h', long := some "help", stops := some .help } ]

def programRules : List (OptionRule CommandOption) :=
  commonRules
    ++ [{ name := .version, short := some 'V', long := some "version", stops := some .version }]

def inputRules : List (OptionRule CommandOption) :=
  commonRules ++
    [ { name := .define, short := some 'D', takesValue := true, isRepeatable := true },
      { name := .undefine, short := some 'U', takesValue := true, isRepeatable := true },
      { name := .includeDirectory, short := some 'I', takesValue := true, isRepeatable := true,
        accepts := isNotEmpty },
      { name := .systemDirectory, long := some "isystem", takesValue := true,
        isRepeatable := true, accepts := isNotEmpty },
      { name := .target, long := some "target", takesValue := true },
      { name := .standard, long := some "std", takesValue := true },
      { name := .preprocessed, long := some "preprocessed" } ]

def optimizationLevels : List String := ["0", "1", "2", "3", "s", "z"]

def buildRules : List (OptionRule CommandOption) :=
  inputRules ++
    [ { name := .output, short := some 'o', long := some "output", takesValue := true,
        accepts := isNotEmpty },
      { name := .emitAssembly, short := some 'S', long := some "emit-asm" },
      { name := .compileOnly, short := some 'c', long := some "compile-only" },
      { name := .emitLlvm, long := some "emit-llvm" },
      { name := .optimization, short := some 'O', takesValue := true,
        accepts := fun value => optimizationLevels.contains value },
      { name := .debugInformation, short := some 'g' },
      { name := .backend, long := some "backend", takesValue := true,
        accepts := fun value => (Backend.ofName? value).isSome } ]

end CommandOption

namespace Command

def inputOptions (path : String) (list : ArgumentList CommandOption) : InputOptions where
  path := path
  preprocessor :=
    { includes := list.values .includeDirectory
      systemIncludes := list.values .systemDirectory
      defines := (list.values .define).map MacroDefinition.ofText
      undefines := list.values .undefine
      target := list.value? .target }
  standard := (list.value? .standard).getD "gnu17"
  isPreprocessed := list.has .preprocessed

def buildOptions (list : ArgumentList CommandOption) : BuildOptions where
  artifact :=
    { output := list.value? .output
      emitsAssembly := list.has .emitAssembly
      compilesOnly := list.has .compileOnly
      emitsLlvm := list.has .emitLlvm }
  optimization := list.value? .optimization
  hasDebugInformation := list.has .debugInformation
  backend := ((list.value? .backend).bind Backend.ofName?).getD .llvm

/-- A command with the words behind its name. -/
def ofWords (rules : List (OptionRule CommandOption))
    (make : InputOptions → ArgumentList CommandOption → Command) (words : List String) :
    Except ArgumentStop Command := do
  let list ← ArgumentList.readWords rules {} none words
  match list.operands with
  | [path] => return make (inputOptions path list) list
  | _ => .error .misuse

def names : List String := ["preprocess", "tokens", "ast", "check", "build"]

/-- `help` may be asked about one command. -/
def helpWith (words : List String) : ArgumentStop :=
  match words with
  | [] => .help
  | [name] => if names.contains name || name == "help" then .help else .misuse
  | _ => .misuse

/-- The command that the first word names. -/
def ofName (name : String) (words : List String) : Except ArgumentStop Command :=
  match name with
  | "preprocess" => ofWords CommandOption.inputRules (fun input _ => .preprocess input) words
  | "tokens" => ofWords CommandOption.inputRules (fun input _ => .tokens input) words
  | "ast" => ofWords CommandOption.inputRules (fun input _ => .tree input) words
  | "check" => ofWords CommandOption.inputRules (fun input _ => .check input) words
  | "build" =>
    ofWords CommandOption.buildRules (fun input list => .build input (buildOptions list)) words
  | "help" => .error (helpWith words)
  | _ => .error .misuse

/-- The command on a command line: options of the program, the name, and what belongs to it. A double
dash in front of the name leaves no place for it. -/
def ofArguments (words : List String) : Except ArgumentStop Command := do
  let leading := words.takeWhile looksLikeOption
  let options := leading.takeWhile (· != "--")
  discard (ArgumentList.readWords CommandOption.programRules {} none options)
  if leading.contains "--" then .error .misuse
  else
    match words.drop leading.length with
    | [] => .error .misuse
    | name :: rest => ofName name rest

end Command

end CFrontEnd
