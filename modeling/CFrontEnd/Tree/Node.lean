import CFrontEnd.Source.Location
import CFrontEnd.Token.Literal
import CFrontEnd.Tree.Kind

/-!
The tree of a parsed text. Every node has the same form: a kind, a place, a payload and children, so
that a tree can be walked, compared and listed without regard to what its nodes mean.
-/

namespace CFrontEnd

inductive StorageClass
  | external
  | static
  | automatic
  | register
  | constexpr
  deriving DecidableEq, Repr

def StorageClass.spelling : StorageClass → String
  | .external => "extern"
  | .static => "static"
  | .automatic => "auto"
  | .register => "register"
  | .constexpr => "constexpr"

structure Qualifiers where
  isConst : Bool := false
  isVolatile : Bool := false
  isRestrict : Bool := false
  isAtomic : Bool := false
  deriving DecidableEq, Repr, Inhabited

namespace Qualifiers

def words (qualifiers : Qualifiers) : List String :=
  (if qualifiers.isConst then ["const"] else [])
    ++ (if qualifiers.isVolatile then ["volatile"] else [])
    ++ (if qualifiers.isRestrict then ["restrict"] else [])
    ++ (if qualifiers.isAtomic then ["_Atomic"] else [])

def isEmpty (qualifiers : Qualifiers) : Bool := qualifiers.words.isEmpty

def text (qualifiers : Qualifiers) : String := " ".intercalate qualifiers.words

end Qualifiers

/-- What a declaration of an object, a parameter, a member or a typedef name says beside its type.
`symbol` is the assembler name that the declarator asks for. -/
structure DeclarationInfo where
  name : Option String := none
  storage : Option StorageClass := none
  isThreadLocal : Bool := false
  symbol : Option String := none
  deriving DecidableEq, Repr, Inhabited

structure FunctionInfo where
  name : String
  storage : Option StorageClass := none
  isInline : Bool := false
  isNoreturn : Bool := false
  isVariadic : Bool := false
  isPrototyped : Bool := false
  symbol : Option String := none
  deriving DecidableEq, Repr, Inhabited

inductive Payload
  | none
  /-- Names of all sorts, and the template of an assembly statement. -/
  | name (text : String)
  | literal (value : Literal)
  /-- The value of a truth constant; whether a `typeof` drops qualifiers; whether a bit-precise
  integer is unsigned. -/
  | flag (value : Bool)
  | declaration (info : DeclarationInfo)
  | function (info : FunctionInfo)
  | tag (name : Option String) (hasBody : Bool)
  | qualifiers (qualifiers : Qualifiers)
  /-- `isStar` is for arrays of a size left open by a star. -/
  | array (qualifiers : Qualifiers) (isStatic isStar : Bool)
  | functionType (isVariadic isPrototyped : Bool)
  deriving BEq, Repr

/-- The name in a payload, whatever it is the name of. -/
def Payload.name? : Payload → Option String
  | .name text => some text
  | .declaration info => info.name
  | .function info => some info.name
  | .tag tagName _ => tagName
  | _ => Option.none

structure Node where
  kind : NodeKind
  location : SourceLocation
  payload : Payload
  children : List Node
  deriving BEq, Repr

namespace Node

/-- A node whose children say all. -/
def ofChildren (kind : NodeKind) (location : SourceLocation) (children : List Node) : Node :=
  ⟨kind, location, .none, children⟩

def leaf (kind : NodeKind) (location : SourceLocation) (payload : Payload) : Node :=
  ⟨kind, location, payload, []⟩

def named (kind : NodeKind) (location : SourceLocation) (name : String) : Node :=
  leaf kind location (.name name)

def child? (node : Node) (index : Nat) : Option Node := node.children[index]?

/-- The name that the node introduces or refers to. -/
def name? (node : Node) : Option String := node.payload.name?

def integerValue? (node : Node) : Option Nat :=
  match node.payload with
  | .literal (.integer value _) => some value
  | _ => none

def declarationInfo? (node : Node) : Option DeclarationInfo :=
  match node.payload with
  | .declaration info => some info
  | _ => none

def functionInfo? (node : Node) : Option FunctionInfo :=
  match node.payload with
  | .function info => some info
  | _ => none

def operatorSpelling? (node : Node) : Option String :=
  match node.kind with
  | .binary operator => some operator.spelling
  | .unary operator => some operator.spelling
  | .assignment operator => some operator.spelling
  | _ => none

/-- The type that a declaration gives to what it declares. -/
def declaredType? (node : Node) : Option Node :=
  match node.kind with
  | .variableDeclaration | .parameterDeclaration | .fieldDeclaration | .typedefDeclaration
  | .functionDeclaration => node.children.head?
  | _ => none

/-- The initial value of a variable. -/
def initializer? (node : Node) : Option Node :=
  if node.kind = .variableDeclaration then
    node.children.tail.find? fun child => child.kind != .alignment
  else none

def parameters (node : Node) : List Node :=
  if node.kind = .functionDeclaration ∨ node.kind = .functionType then
    node.children.filter fun child => child.kind == .parameterDeclaration
  else []

/-- The body of a function definition. -/
def body? (node : Node) : Option Node :=
  if node.kind = .functionDeclaration then
    node.children.getLast?.filter fun child => child.kind == .compound
  else none

mutual

/-- Equality but for the places. -/
def sameShape : Node → Node → Bool
  | ⟨kind, _, payload, children⟩, ⟨otherKind, _, otherPayload, otherChildren⟩ =>
    kind == otherKind && payload == otherPayload && sameShapes children otherChildren

def sameShapes : List Node → List Node → Bool
  | [], [] => true
  | node :: rest, other :: otherRest => sameShape node other && sameShapes rest otherRest
  | _, _ => false

end

mutual

/-- The number of nodes in the tree. -/
def size : Node → Nat
  | ⟨_, _, _, children⟩ => 1 + sizes children

def sizes : List Node → Nat
  | [] => 0
  | node :: rest => size node + sizes rest

end

theorem size_eq (node : Node) : node.size = 1 + sizes node.children := by
  cases node
  rw [size]

theorem sizes_append (first second : List Node) :
    sizes (first ++ second) = sizes first + sizes second := by
  induction first with
  | nil => simp [sizes]
  | cons node rest ih => simp [sizes, ih, Nat.add_assoc]

end Node

end CFrontEnd
