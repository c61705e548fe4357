/-!
Nested scopes of names and tags. A name is bound as a typedef or as an ordinary identifier, and the
innermost scope that binds it decides what it is. Tags live apart from names.
-/

namespace CFrontEnd

inductive TagKind
  | structTag
  | unionTag
  | enumTag
  deriving DecidableEq, Repr

def TagKind.spelling : TagKind → String
  | .structTag => "struct"
  | .unionTag => "union"
  | .enumTag => "enum"

inductive NameKind
  | typedefName
  | ordinary
  deriving DecidableEq, Repr

/-- The latest binding of a name comes first. -/
structure Scope where
  names : List (String × NameKind) := []
  tags : List (String × TagKind) := []
  deriving DecidableEq, Repr

/-- The last of the outer scopes, or the innermost if there are no others, is the file scope. -/
structure ScopeStack where
  innermost : Scope := {}
  outer : List Scope := []
  deriving DecidableEq, Repr

namespace ScopeStack

/-- The file scope, with nothing in it. -/
def initial : ScopeStack := {}

/-- All scopes, innermost first. -/
def toList (scopes : ScopeStack) : List Scope := scopes.innermost :: scopes.outer

def depth (scopes : ScopeStack) : Nat := scopes.outer.length + 1

def enter (scopes : ScopeStack) : ScopeStack := ⟨{}, scopes.toList⟩

/-- The file scope is never left. -/
def exit (scopes : ScopeStack) : ScopeStack :=
  match scopes.outer with
  | [] => scopes
  | scope :: rest => ⟨scope, rest⟩

@[simp] theorem exit_enter (scopes : ScopeStack) : scopes.enter.exit = scopes := rfl

@[simp] theorem depth_enter (scopes : ScopeStack) : scopes.enter.depth = scopes.depth + 1 := by
  simp [enter, depth, toList]

def bind (scopes : ScopeStack) (name : String) (kind : NameKind) : ScopeStack :=
  { scopes with innermost.names := (name, kind) :: scopes.innermost.names }

def addTypedef (scopes : ScopeStack) (name : String) : ScopeStack := scopes.bind name .typedefName

/-- Objects, functions, parameters and enumerators are ordinary. -/
def addOrdinary (scopes : ScopeStack) (name : String) : ScopeStack := scopes.bind name .ordinary

/-- Declares a tag in the innermost scope. A tag that is there already with another kind stays what
it is, and that kind is the answer. -/
def addTag (scopes : ScopeStack) (kind : TagKind) (name : String) : Except TagKind ScopeStack :=
  match scopes.innermost.tags.lookup name with
  | some earlier => if earlier = kind then .ok scopes else .error earlier
  | none => .ok { scopes with innermost.tags := (name, kind) :: scopes.innermost.tags }

def lookupTag? (scopes : ScopeStack) (name : String) : Option TagKind :=
  scopes.toList.findSome? fun scope => scope.tags.lookup name

def lookupName? (scopes : ScopeStack) (name : String) : Option NameKind :=
  scopes.toList.findSome? fun scope => scope.names.lookup name

def isTypedefName (scopes : ScopeStack) (name : String) : Bool :=
  scopes.lookupName? name == some .typedefName

end ScopeStack

end CFrontEnd
