import CFrontEnd.Tree.Node

/-!
Declarators: the name that is declared and the steps by which its type is derived from the type in
front of it. The step nearest to the name is the outermost part of the type, so `*x[3]` is an array
of pointers.
-/

namespace CFrontEnd

/-- Whether a declarator has a name. Parameters may go either way. -/
inductive DeclaratorForm
  | named
  | abstract
  | either
  deriving DecidableEq, Repr

inductive TypeDerivation
  | pointer (location : SourceLocation) (qualifiers : Qualifiers)
  | array (location : SourceLocation) (qualifiers : Qualifiers) (isStatic isStar : Bool)
    (length : Option Node)
  | function (location : SourceLocation) (parameters : List Node) (isVariadic isPrototyped : Bool)

/-- A type under its qualifiers, which without any is the type itself. -/
def Qualifiers.apply (qualifiers : Qualifiers) (location : SourceLocation) (type : Node) : Node :=
  if qualifiers.isEmpty then type else ⟨.qualifiedType, location, .qualifiers qualifiers, [type]⟩

/-- The type derived from `base` by one step. -/
def TypeDerivation.apply (derivation : TypeDerivation) (base : Node) : Node :=
  match derivation with
  | .pointer location qualifiers =>
    qualifiers.apply location (.ofChildren .pointerType location [base])
  | .array location qualifiers isStatic isStar length =>
    ⟨.arrayType, location, .array qualifiers isStatic isStar, base :: length.toList⟩
  | .function location parameters isVariadic isPrototyped =>
    ⟨.functionType, location, .functionType isVariadic isPrototyped, base :: parameters⟩

/-- `derivations` are read from the name outward. -/
structure Declarator where
  name : Option String
  location : SourceLocation
  derivations : List TypeDerivation := []

namespace Declarator

def append (declarator : Declarator) (derivations : List TypeDerivation) : Declarator :=
  { declarator with derivations := declarator.derivations ++ derivations }

/-- The type of what is declared, if the specifiers in front of the declarator give `base`. -/
def type (declarator : Declarator) (base : Node) : Node :=
  declarator.derivations.foldr TypeDerivation.apply base

def isFunction (declarator : Declarator) : Bool :=
  match declarator.derivations with
  | .function .. :: _ => true
  | _ => false

end Declarator

end CFrontEnd
