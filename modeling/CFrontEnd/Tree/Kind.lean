import CFrontEnd.Tree.Operator

/-!
The kinds of nodes. A comment on a kind lists its children where their order needs words.
-/

namespace CFrontEnd

inductive NodeKind
  | program
  /-- The returned type, the parameters, and the body if there is one. -/
  | functionDeclaration
  /-- The type, the alignments, and the initial value if there is one. -/
  | variableDeclaration
  /-- The type. -/
  | parameterDeclaration
  /-- The type, the alignments, and the width of a bit-field. -/
  | fieldDeclaration
  /-- A tag on its own, without a declarator; the children are the members. -/
  | structDeclaration
  | unionDeclaration
  | enumDeclaration
  /-- The value if one is given. -/
  | enumConstant
  /-- The type. -/
  | typedefDeclaration
  /-- The condition, and the message if there is one. -/
  | staticAssertion
  /-- Several declarations, or none, where one node is wanted. -/
  | declarationGroup
  /-- A type or an expression. -/
  | alignment
  /-- A label announced in front of the statements of a block. -/
  | labelDeclaration
  | compound
  /-- The condition, the branch taken, and the other one if there is one. -/
  | ifStatement
  /-- The condition and the body. -/
  | whileLoop
  /-- The body and the condition. -/
  | doWhileLoop
  /-- The beginning, the condition, the step and the body; what is left out is `empty`. -/
  | forLoop
  /-- The value and the body. -/
  | switchStatement
  /-- The value, the upper end if it is a range, and the statement. -/
  | caseLabel
  /-- The statement. -/
  | defaultLabel
  /-- The value if there is one. -/
  | returnStatement
  | breakStatement
  | continueStatement
  | gotoStatement
  /-- The address to go to. -/
  | indirectGoto
  /-- The statement. -/
  | labeled
  /-- The expression. -/
  | expressionStatement
  | empty
  /-- The operands; the payload is the template. -/
  | assembly
  | binary (operator : BinaryOperator)
  | unary (operator : UnaryOperator)
  | assignment (operator : AssignmentOperator)
  /-- The condition and both values. -/
  | conditional
  /-- The condition, which is its own first value, and the second value. -/
  | binaryConditional
  | comma
  /-- The function and the arguments. -/
  | call
  /-- The object; the payload is the name of the member. -/
  | member
  | arrow
  /-- The array and the index. -/
  | subscript
  /-- The type and the operand. -/
  | cast
  | sizeofExpression
  | sizeofType
  | alignofExpression
  | alignofType
  /-- The type and the initializer list. -/
  | compoundLiteral
  /-- The controlling expression and the associations. -/
  | genericSelection
  /-- The type and the value. -/
  | genericAssociation
  /-- The value. -/
  | genericDefault
  | identifier
  | integerLiteral
  | floatLiteral
  | characterLiteral
  | stringLiteral
  | booleanLiteral
  | nullptrLiteral
  /-- The block. -/
  | statementExpression
  | labelAddress
  /-- The argument list and the type. -/
  | builtinVaArg
  /-- The type and the designators. -/
  | builtinOffsetof
  /-- Both types. -/
  | builtinTypesCompatible
  | initializerList
  /-- The designators and the value. -/
  | designation
  | fieldDesignator
  /-- The index. -/
  | indexDesignator
  /-- Both ends. -/
  | rangeDesignator
  | builtinType
  | typedefName
  /-- The type pointed to. -/
  | pointerType
  /-- The type of the elements, and the size if there is one. -/
  | arrayType
  /-- The returned type and the parameters. -/
  | functionType
  /-- The members, if they are listed. -/
  | structType
  | unionType
  | enumType
  /-- The type that is qualified. -/
  | qualifiedType
  /-- The type made atomic. -/
  | atomicType
  /-- A type or an expression. -/
  | typeofType
  /-- The width. -/
  | bitIntType
  deriving DecidableEq, Repr

namespace NodeKind

/-- The name of the kind in listings; operators are left out. -/
def name : NodeKind → String
  | .program => "TranslationUnit"
  | .functionDeclaration => "FunctionDecl"
  | .variableDeclaration => "VarDecl"
  | .parameterDeclaration => "ParamDecl"
  | .fieldDeclaration => "FieldDecl"
  | .structDeclaration => "StructDecl"
  | .unionDeclaration => "UnionDecl"
  | .enumDeclaration => "EnumDecl"
  | .enumConstant => "EnumConstant"
  | .typedefDeclaration => "TypedefDecl"
  | .staticAssertion => "StaticAssert"
  | .declarationGroup => "DeclGroup"
  | .alignment => "AlignAs"
  | .labelDeclaration => "LabelDecl"
  | .compound => "Compound"
  | .ifStatement => "If"
  | .whileLoop => "While"
  | .doWhileLoop => "DoWhile"
  | .forLoop => "For"
  | .switchStatement => "Switch"
  | .caseLabel => "Case"
  | .defaultLabel => "Default"
  | .returnStatement => "Return"
  | .breakStatement => "Break"
  | .continueStatement => "Continue"
  | .gotoStatement => "Goto"
  | .indirectGoto => "IndirectGoto"
  | .labeled => "Labeled"
  | .expressionStatement => "ExprStmt"
  | .empty => "Empty"
  | .assembly => "Asm"
  | .binary _ => "Binary"
  | .unary _ => "Unary"
  | .assignment _ => "Assign"
  | .conditional => "Conditional"
  | .binaryConditional => "BinaryConditional"
  | .comma => "Comma"
  | .call => "Call"
  | .member => "Member"
  | .arrow => "Arrow"
  | .subscript => "Subscript"
  | .cast => "Cast"
  | .sizeofExpression => "SizeofExpr"
  | .sizeofType => "SizeofType"
  | .alignofExpression => "AlignofExpr"
  | .alignofType => "AlignofType"
  | .compoundLiteral => "CompoundLiteral"
  | .genericSelection => "GenericSelection"
  | .genericAssociation => "GenericAssoc"
  | .genericDefault => "GenericDefault"
  | .identifier => "Identifier"
  | .integerLiteral => "IntLiteral"
  | .floatLiteral => "FloatLiteral"
  | .characterLiteral => "CharLiteral"
  | .stringLiteral => "StringLiteral"
  | .booleanLiteral => "BoolLiteral"
  | .nullptrLiteral => "NullptrLiteral"
  | .statementExpression => "StmtExpr"
  | .labelAddress => "LabelAddress"
  | .builtinVaArg => "BuiltinVaArg"
  | .builtinOffsetof => "BuiltinOffsetof"
  | .builtinTypesCompatible => "BuiltinTypesCompatible"
  | .initializerList => "InitList"
  | .designation => "Designation"
  | .fieldDesignator => "FieldDesignator"
  | .indexDesignator => "IndexDesignator"
  | .rangeDesignator => "RangeDesignator"
  | .builtinType => "BuiltinType"
  | .typedefName => "TypedefName"
  | .pointerType => "PointerType"
  | .arrayType => "ArrayType"
  | .functionType => "FunctionType"
  | .structType => "StructType"
  | .unionType => "UnionType"
  | .enumType => "EnumType"
  | .qualifiedType => "QualifiedType"
  | .atomicType => "AtomicType"
  | .typeofType => "TypeofType"
  | .bitIntType => "BitIntType"

def isType : NodeKind → Bool
  | .builtinType | .typedefName | .pointerType | .arrayType | .functionType | .structType
  | .unionType | .enumType | .qualifiedType | .atomicType | .typeofType | .bitIntType => true
  | _ => false

def isDeclaration : NodeKind → Bool
  | .functionDeclaration | .variableDeclaration | .parameterDeclaration | .fieldDeclaration
  | .structDeclaration | .unionDeclaration | .enumDeclaration | .enumConstant
  | .typedefDeclaration | .staticAssertion | .declarationGroup | .labelDeclaration => true
  | _ => false

end NodeKind

end CFrontEnd
