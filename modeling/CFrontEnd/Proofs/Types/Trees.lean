import CFrontEnd.Proofs.Spelling.OperatorTrees
import CFrontEnd.Proofs.Types.BuiltinNames

/-!
The trees of types that are built from the built-in ones with pointers, arrays and functions, how they
are written, and how deep the declarators nest that they are written with.
-/

namespace CFrontEnd

/-- A name in GNU C23 that stands for no type. -/
def IsObjectName (name : String) : Prop :=
  IsName gnuC23 name ∧ name ≠ "__builtin_va_list"

instance (name : String) : Decidable (IsObjectName name) :=
  inferInstanceAs (Decidable (_ ∧ _))

inductive IsArrayLength : Node → Prop
  | integer {spot : SourceLocation} {value : Nat} {suffix : IntegerSuffix}
      (isInteger : IsIntegerLiteral value suffix) :
      IsArrayLength ⟨.integerLiteral, spot, .literal (.integer value suffix), []⟩
  | identifier {spot : SourceLocation} {name : String} (isName : IsObjectName name) :
      IsArrayLength ⟨.identifier, spot, .name name, []⟩

/-- A parameter without a storage class. -/
structure Parameter where
  name : Option String
  spot : SourceLocation
  type : Node

namespace Parameter

def node (parameter : Parameter) : Node :=
  ⟨.parameterDeclaration, parameter.spot, .declaration { name := parameter.name },
    [parameter.type]⟩

/-- A single one of these says that there are no parameters. -/
def IsPlainVoid (parameter : Parameter) : Prop :=
  parameter.name = none ∧ ∃ spot, parameter.type = ⟨.builtinType, spot, .name "void", []⟩

end Parameter

/-- What a list of parameters can say. -/
structure IsParameterList (parameters : List Parameter) (isVariadic isPrototyped : Bool) : Prop where
  names : ∀ parameter ∈ parameters, ∀ name ∈ parameter.name, IsObjectName name
  unprototyped : isPrototyped = false → parameters = [] ∧ isVariadic = false
  notVoid : isVariadic = false → ∀ parameter, parameters = [parameter] → ¬ parameter.IsPlainVoid

inductive IsBaseType : Node → Prop
  | builtin {spot : SourceLocation} {name : String} (isBuiltin : IsBuiltinName name) :
      IsBaseType ⟨.builtinType, spot, .name name, []⟩
  | qualified {spot inside : SourceLocation} {qualifiers : Qualifiers} {name : String}
      (someQualifiers : qualifiers.isEmpty = false) (isBuiltin : IsBuiltinName name) :
      IsBaseType
        ⟨.qualifiedType, spot, .qualifiers qualifiers, [⟨.builtinType, inside, .name name, []⟩]⟩

inductive IsTypeTree : Node → Prop
  | base {tree : Node} (isBase : IsBaseType tree) : IsTypeTree tree
  | pointer {spot : SourceLocation} {target : Node} :
      IsTypeTree target → IsTypeTree ⟨.pointerType, spot, .none, [target]⟩
  | qualifiedPointer {spot inside : SourceLocation} {qualifiers : Qualifiers} {target : Node}
      (someQualifiers : qualifiers.isEmpty = false) :
      IsTypeTree target →
      IsTypeTree ⟨.qualifiedType, spot, .qualifiers qualifiers,
        [⟨.pointerType, inside, .none, [target]⟩]⟩
  | array {spot : SourceLocation} {element : Node} {length : Option Node}
      (isLength : ∀ node ∈ length, IsArrayLength node) :
      IsTypeTree element →
      IsTypeTree ⟨.arrayType, spot, .array {} false false, element :: length.toList⟩
  | function {spot : SourceLocation} {returned : Node} {parameters : List Parameter}
      {isVariadic isPrototyped : Bool}
      (isList : IsParameterList parameters isVariadic isPrototyped) :
      IsTypeTree returned → (∀ parameter ∈ parameters, IsTypeTree parameter.type) →
      IsTypeTree ⟨.functionType, spot, .functionType isVariadic isPrototyped,
        returned :: parameters.map Parameter.node⟩

namespace IsTypeTree

variable {spot : SourceLocation} {element length : Node}

theorem openArray (isElement : IsTypeTree element) :
    IsTypeTree ⟨.arrayType, spot, .array {} false false, [element]⟩ :=
  @array spot element none (by simp) isElement

theorem sizedArray (isElement : IsTypeTree element) (isLength : IsArrayLength length) :
    IsTypeTree ⟨.arrayType, spot, .array {} false false, [element, length]⟩ :=
  @array spot element (some length) (by simpa using isLength) isElement

end IsTypeTree

/-! ## Nesting -/

/-- A declarator that begins with a star is closed in parentheses before an array or a function is
made of it. -/
def closedDepth (isPointer : Bool) (depth : Nat) : Nat := if isPointer then depth + 1 else depth

/-- The levels that an expression takes which is an operand alone. -/
def operandLevels : Nat := 4

namespace Node

mutual

/-- How deep the declarator nests with which the type is written around another one. That one is
`depth` deep itself, and may begin with a star. -/
def depthAround : Node → Bool → Nat → Nat
  | ⟨kind, _, _, children⟩, isPointer, depth =>
    match kind, children with
    | .pointerType, target :: _ => depthAround target true depth
    | .qualifiedType, type :: _ => depthAround type isPointer depth
    | .arrayType, element :: length =>
      let lengthDepth := if length.isEmpty then 0 else operandLevels
      depthAround element false (max (closedDepth isPointer depth) lengthDepth)
    | .functionType, returned :: parameters =>
      depthAround returned false (max (closedDepth isPointer depth) (parametersDepth parameters))
    | _, _ => depth

/-- The declarator of a parameter is one level further in. -/
def parametersDepth : List Node → Nat
  | [] => 0
  | ⟨_, _, _, type :: _⟩ :: rest => max (depthAround type false 0 + 1) (parametersDepth rest)
  | _ :: rest => parametersDepth rest

end

/-- How deep the declarator nests with which the type is written around a name or on its own. -/
def nesting (tree : Node) : Nat := tree.depthAround false 0

end Node

end CFrontEnd
