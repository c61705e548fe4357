import CFrontEnd.Host.Path

/-!
What a build is to write and where. There is no code generator yet: a build ends with the plan.
-/

namespace CFrontEnd

inductive ArtifactKind
  | executable
  | object
  | assembly
  | llvmIr
  deriving DecidableEq, Repr

structure ArtifactRequest where
  output : Option String := none
  emitsAssembly : Bool := false
  compilesOnly : Bool := false
  emitsLlvm : Bool := false
  deriving DecidableEq, Repr

structure Artifact where
  kind : ArtifactKind
  path : String
  deriving DecidableEq, Repr

namespace ArtifactRequest

/-- The most particular request wins. Without one the ending of the output asks for an object. -/
def kind (request : ArtifactRequest) : ArtifactKind :=
  if request.emitsLlvm then .llvmIr
  else if request.emitsAssembly then .assembly
  else if request.compilesOnly || request.output.bind fileExtension? == some "o" then .object
  else .executable

/-- Where an artifact goes that was given no name. -/
def defaultPath (kind : ArtifactKind) (input : String) : String :=
  let stem := (fileStem? input).getD "out"
  match kind with
  | .executable => "a.out"
  | .object => stem ++ ".o"
  | .assembly => stem ++ ".s"
  | .llvmIr => stem ++ ".ll"

def plan (request : ArtifactRequest) (input : String) : Artifact :=
  { kind := request.kind
    path := request.output.getD (defaultPath request.kind input) }

end ArtifactRequest

inductive Backend
  | llvm
  | rust
  | zig
  | c
  deriving DecidableEq, Repr

namespace Backend

def name : Backend → String
  | .llvm => "llvm"
  | .rust => "rust"
  | .zig => "zig"
  | .c => "c"

def all : List Backend := [.llvm, .rust, .zig, .c]

def ofName? (name : String) : Option Backend := all.find? fun backend => backend.name == name

/-- Why nothing was generated. -/
def refusal (backend : Backend) : String :=
  "the " ++ backend.name ++ " backend is not implemented"

end Backend

end CFrontEnd
