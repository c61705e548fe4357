import CFrontEnd.Spelling.Literal
import CFrontEnd.Tree.Node

/-!
Trees as C source. Every operator gets parentheses of its own, so that no precedence is needed to
read an expression back. A type is written around the text of what is declared: pointers stand in
front of it, arrays and parameters behind it.
-/

namespace CFrontEnd

/-- How a node is written in every place where it can stand. -/
structure Spelling where
  name : String
  /-- The text as an expression; types have none of their own. -/
  expression? : Option String
  /-- The text as the type of what is declared. -/
  declarator : String → String
  /-- The text as a qualified type, from the qualifiers and what is declared. -/
  qualified : String → String → String
  /-- The text in a list of parameters, if the node is a parameter. -/
  parameter? : Option String

namespace Spelling

/-- The text as a type on its own. -/
def type (spelling : Spelling) : String := spelling.declarator ""

def expression (spelling : Spelling) : String :=
  match spelling.expression? with
  | some text => text
  | none => spelling.type

/-! ## Texts of missing parts are empty -/

def expressionAt (parts : List Spelling) (index : Nat) : String :=
  (parts[index]?.map expression).getD ""

def typeAt (parts : List Spelling) (index : Nat) : String := (parts[index]?.map type).getD ""

def listText (texts : List String) : String := ", ".intercalate texts

def parenthesized (text : String) : String := "(" ++ text ++ ")"

/-! ## Types -/

/-- A type in front of what is declared. -/
def before (head inner : String) : String :=
  if inner.isEmpty then head else head ++ " " ++ inner

/-- Arrays and functions bind closer than the pointers in front of a name. -/
def closed (inner : String) : String :=
  if inner.toList.head? = some '*' then parenthesized inner else inner

/-- The text around `inner` by the first of the parts, which without any is `inner` itself. -/
def aroundFirst (parts : List Spelling) (inner : String) (derived : String) : String :=
  match parts.head? with
  | some first => first.declarator derived
  | none => inner

def tagText (word : String) (payload : Payload) : String :=
  match payload.name? with
  | some name => word ++ " " ++ name
  | none => word ++ " \x7b...\x7d"

/-- The list in parentheses; that there are no parameters is said with `void`. -/
def parametersText (payload : Payload) (parts : List Spelling) : String :=
  let parameters := parts.filterMap parameter?
  let (isVariadic, isPrototyped) :=
    match payload with
    | .functionType isVariadic isPrototyped => (isVariadic, isPrototyped)
    | _ => (false, true)
  listText <|
    if isVariadic then parameters ++ ["..."]
    else if parameters.isEmpty && isPrototyped then ["void"]
    else parameters

def qualifiersText (payload : Payload) : String :=
  match payload with
  | .qualifiers qualifiers => qualifiers.text
  | _ => ""

def declaratorText (kind : NodeKind) (payload : Payload) (parts : List Spelling)
    (inner : String) : String :=
  match kind with
  | .builtinType | .typedefName => before (payload.name?.getD "") inner
  | .structType => before (tagText "struct" payload) inner
  | .unionType => before (tagText "union" payload) inner
  | .enumType => before (tagText "enum" payload) inner
  | .pointerType => aroundFirst parts inner ("*" ++ inner)
  | .qualifiedType =>
    match parts.head? with
    | some first => first.qualified (qualifiersText payload) inner
    | none => inner
  | .arrayType =>
    aroundFirst parts (closed inner) (closed inner ++ "[" ++ expressionAt parts 1 ++ "]")
  | .functionType =>
    aroundFirst parts (closed inner)
      (closed inner ++ parenthesized (parametersText payload parts))
  | .atomicType => before ("_Atomic" ++ parenthesized (typeAt parts 0)) inner
  | .typeofType =>
    let word := if payload == .flag true then "typeof_unqual" else "typeof"
    before (word ++ parenthesized (expressionAt parts 0)) inner
  | .bitIntType =>
    let word := if payload == .flag true then "unsigned _BitInt" else "_BitInt"
    before (word ++ parenthesized (expressionAt parts 0)) inner
  | other => before ("<" ++ other.name ++ ">") inner

/-- The qualifiers of a pointer stand behind its star, those of other types in front of the type. -/
def qualifiedText (kind : NodeKind) (payload : Payload) (parts : List Spelling)
    (qualifiers inner : String) : String :=
  match kind with
  | .pointerType =>
    let gap := if inner.isEmpty then "" else " "
    aroundFirst parts inner ("*" ++ qualifiers ++ gap ++ inner)
  | _ => qualifiers ++ " " ++ declaratorText kind payload parts inner

/-! ## Expressions -/

def infixText (operator : String) (parts : List Spelling) : String :=
  parenthesized (expressionAt parts 0 ++ " " ++ operator ++ " " ++ expressionAt parts 1)

def unaryText (operator : UnaryOperator) (parts : List Spelling) : String :=
  parenthesized <|
    if operator.isWrittenAfter then expressionAt parts 0 ++ operator.spelling
    else operator.spelling ++ expressionAt parts 0

/-- The last part is the value, those before it the way to what it initializes. -/
def designationText (parts : List Spelling) : String :=
  String.join (parts.dropLast.map expression) ++ " = "
    ++ ((parts.getLast?.map expression).getD "")

/-- The first member is named without the point that the others have. -/
def memberPathText (parts : List Spelling) : String :=
  match parts with
  | [] => ""
  | first :: rest => first.name ++ String.join (rest.map expression)

/-- A literal whose value is of another kind is written as `fallback`. -/
def literalOfKind (kind : NodeKind) (payload : Payload) : String :=
  match kind, payload with
  | .integerLiteral, .literal (.integer value suffix) => (Literal.integer value suffix).spelling
  | .integerLiteral, _ => "0"
  | .floatLiteral, .literal (.floating value suffix) => (Literal.floating value suffix).spelling
  | .floatLiteral, _ => "0.0"
  | .characterLiteral, .literal (.character value encoding) =>
    (Literal.character value encoding).spelling
  | .characterLiteral, _ => "'\\0'"
  | _, .literal (.string units encoding) => (Literal.string units encoding).spelling
  | _, _ => "\"\""

def expressionText (kind : NodeKind) (payload : Payload) (parts : List Spelling) : String :=
  let expression := expressionAt parts
  let type := typeAt parts
  let name := payload.name?.getD ""
  let arguments := listText ((parts.drop 1).map Spelling.expression)
  match kind with
  | .binary operator => infixText operator.spelling parts
  | .assignment operator => infixText operator.spelling parts
  | .unary operator => unaryText operator parts
  | .conditional =>
    parenthesized (expression 0 ++ " ? " ++ expression 1 ++ " : " ++ expression 2)
  | .binaryConditional => parenthesized (expression 0 ++ " ?: " ++ expression 1)
  | .comma => parenthesized (expression 0 ++ ", " ++ expression 1)
  | .call => expression 0 ++ parenthesized arguments
  | .member => expression 0 ++ "." ++ name
  | .arrow => expression 0 ++ "->" ++ name
  | .subscript => expression 0 ++ "[" ++ expression 1 ++ "]"
  | .cast => parenthesized (parenthesized (type 0) ++ " " ++ expression 1)
  | .sizeofExpression => parenthesized ("sizeof " ++ expression 0)
  | .alignofExpression => parenthesized ("_Alignof " ++ expression 0)
  | .sizeofType => "sizeof" ++ parenthesized (type 0)
  | .alignofType => "_Alignof" ++ parenthesized (type 0)
  | .compoundLiteral => parenthesized (parenthesized (type 0) ++ expression 1)
  | .initializerList => "\x7b" ++ listText (parts.map Spelling.expression) ++ "\x7d"
  | .designation => designationText parts
  | .fieldDesignator => "." ++ name
  | .indexDesignator => "[" ++ expression 0 ++ "]"
  | .rangeDesignator => "[" ++ expression 0 ++ " ... " ++ expression 1 ++ "]"
  | .genericSelection =>
    let associations := (parts.drop 1).map Spelling.expression
    "_Generic" ++ parenthesized (listText (expression 0 :: associations))
  | .genericAssociation => type 0 ++ ": " ++ expression 1
  | .genericDefault => "default: " ++ expression 0
  | .identifier => name
  | .integerLiteral | .floatLiteral | .characterLiteral | .stringLiteral =>
    literalOfKind kind payload
  | .booleanLiteral => toString (payload == .flag true)
  | .nullptrLiteral => "nullptr"
  | .labelAddress => parenthesized ("&&" ++ name)
  | .statementExpression => "(\x7b ... \x7d)"
  | .builtinVaArg => "__builtin_va_arg" ++ parenthesized (listText [expression 0, type 1])
  | .builtinOffsetof =>
    "__builtin_offsetof" ++ parenthesized (listText [type 0, memberPathText (parts.drop 1)])
  | .builtinTypesCompatible =>
    "__builtin_types_compatible_p" ++ parenthesized (listText [type 0, type 1])
  | other => "<" ++ other.name ++ ">"

/-! ## All places -/

/-- A parameter is written as its type around its name. -/
def parameterText (payload : Payload) (parts : List Spelling) : String :=
  (parts.head?.map fun type => type.declarator (payload.name?.getD "")).getD ""

/-- The spelling of a node from those of its children. -/
def ofParts (kind : NodeKind) (payload : Payload) (parts : List Spelling) : Spelling where
  name := payload.name?.getD ""
  expression? := if kind.isType then none else some (expressionText kind payload parts)
  declarator := declaratorText kind payload parts
  qualified := qualifiedText kind payload parts
  parameter? :=
    if kind = .parameterDeclaration then some (parameterText payload parts) else none

end Spelling

namespace Node

mutual

def spelling : Node → Spelling
  | ⟨kind, _, payload, children⟩ => .ofParts kind payload (spellings children)

def spellings : List Node → List Spelling
  | [] => []
  | node :: rest => spelling node :: spellings rest

end

theorem spellings_eq_map (nodes : List Node) : spellings nodes = nodes.map spelling := by
  induction nodes with
  | nil => simp [spellings]
  | cons node rest ih => simp [spellings, ih]

/-- The node as an expression. -/
def expressionText (node : Node) : String := node.spelling.expression

/-- The node as a type that stands alone. -/
def typeText (node : Node) : String := node.spelling.type

/-- The node as the type of what `inner` declares. -/
def declaratorText (node : Node) (inner : String) : String := node.spelling.declarator inner

end Node

end CFrontEnd
