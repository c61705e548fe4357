import CFrontEnd.Grammar.Rules.Declarations

/-!
Expressions. The operators between two operands climb through the precedence levels that the language
gives them.
-/

namespace CFrontEnd

/-- The least level that an operator on the right of this one may have. -/
def OperatorEntry.rightLevel (entry : OperatorEntry) : Nat :=
  if entry.associativity = .right then entry.precedence else entry.precedence + 1

namespace Productions

open Parse

/-! ## Operators between operands -/

/-- The assignment operator at the current token. -/
def atAssignment? : Parse (Option AssignmentOperator) := fun context state =>
  let answer :=
    match (context.tokens.get state.position).kind with
    | .operator operator =>
      if context.language.precedence? operator = some Precedence.assignment.level then
        AssignmentOperator.ofOperator? operator
      else none
    | _ => none
  .ok answer state

def assignmentRule (deeper : Productions) : Parse Node := do
  let target ← deeper.conditional
  match ← atAssignment? with
  | none => return target
  | some operator =>
    let place ← location
    discard advance
    let value ← deeper.assignment
    return .ofChildren (.assignment operator) place [target, value]

/-- The binary operator at the current token, if its level is `least` or a tighter one, and the least
level on its right. -/
def atBinary? (least : Nat) : Parse (Option (BinaryOperator × Nat)) := fun context state =>
  let answer :=
    match (context.tokens.get state.position).kind with
    | .operator operator =>
      match context.language.operatorEntry? operator with
      | some entry =>
        if least ≤ entry.precedence ∧ Precedence.logicalOr.level ≤ entry.precedence
            ∧ entry.precedence ≤ Precedence.multiplicative.level then
          (BinaryOperator.ofOperator? operator).map fun binary =>
            (binary, entry.rightLevel)
        else none
      | none => none
    | _ => none
  .ok answer state

/-- Operands with operators of at least the level `least` between them. Every step to the right goes
past an operator, so that the tokens that are left bound the steps. -/
def binaryWithin (deeper : Productions) (steps least : Nat) : Parse Node :=
  match steps with
  | 0 => deeper.cast
  | steps + 1 => do
    let first ← deeper.cast
    iterate first fun left => do
      match ← atBinary? least with
      | none => return .done left
      | some (operator, rightLevel) =>
        let place ← location
        discard advance
        let right ← binaryWithin deeper steps rightLevel
        return .yield (.ofChildren (.binary operator) place [left, right])

def binary (deeper : Productions) : Parse Node := fun context state =>
  binaryWithin deeper (state.remaining context) Precedence.logicalOr.level context state

/-- In GNU dialects the first value may be left out, and is then the condition itself. -/
def conditionalRule (deeper : Productions) : Parse Node := do
  let condition ← binary deeper
  let place ← location
  if !(← consume (.operator .question)) then return condition
  else if ← consumeInGnu (.punctuator .colon) then
    let otherwise ← deeper.conditional
    return .ofChildren .binaryConditional place [condition, otherwise]
  else
    let value ← deeper.expression
    discard (expectPunctuator .colon "':'")
    let otherwise ← deeper.conditional
    return .ofChildren .conditional place [condition, value, otherwise]

/-! ## Primary expressions -/

def literalKind : LiteralKind → NodeKind
  | .integer => .integerLiteral
  | .floating => .floatLiteral
  | .character => .characterLiteral
  | .string => .stringLiteral

def literal (kind : LiteralKind) : Parse Node := do
  let token ← advance
  return .leaf (literalKind kind) token.location (.literal (token.literalOf kind))

/-- The current token is an opening parenthesis. In GNU dialects a block in it has the value of its
last statement. -/
def parenthesized (deeper : Productions) : Parse Node := do
  let opening ← advance
  let isBlock := (← isGnu) && (← atPunctuator .openBrace)
  if isBlock then
    let body ← block deeper
    discard (expectPunctuator .closeParen "')' after statement expression")
    return .ofChildren .statementExpression opening.location [body]
  else
    let inner ← deeper.expression
    expectClosingParen
    return inner

def genericAssociation (deeper : Productions) : Parse Node := do
  let start ← location
  if ← consume (.keyword .defaultWord) then
    discard (expectPunctuator .colon "':'")
    let value ← deeper.assignment
    return .ofChildren .genericDefault start [value]
  else
    let type ← deeper.typeName
    discard (expectPunctuator .colon "':'")
    let value ← deeper.assignment
    return .ofChildren .genericAssociation start [type, value]

def expectComma : Parse Unit := discard (expectPunctuator .comma "','")

/-- One item or several with commas between them. -/
def listOf (item : Parse Node) : Parse (Array Node) := completed (separatedItems item)

def genericSelection (deeper : Productions) : Parse Node := do
  let word ← advance
  discard (expectPunctuator .openParen "'(' after '_Generic'")
  let controlling ← deeper.assignment
  expectComma
  let associations ← listOf (genericAssociation deeper)
  expectClosingParen
  return .ofChildren .genericSelection word.location (controlling :: associations.toList)

def builtinVaArg (deeper : Productions) : Parse Node := do
  let word ← advance
  discard (expectPunctuator .openParen "'(' after '__builtin_va_arg'")
  let arguments ← deeper.assignment
  expectComma
  let type ← deeper.typeName
  expectClosingParen
  return .ofChildren .builtinVaArg word.location [arguments, type]

def builtinTypesCompatible (deeper : Productions) : Parse Node := do
  let word ← advance
  discard (expectPunctuator .openParen "'(' after '__builtin_types_compatible_p'")
  let first ← deeper.typeName
  expectComma
  let second ← deeper.typeName
  expectClosingParen
  return .ofChildren .builtinTypesCompatible word.location [first, second]

def fieldDesignator : Parse Node := do
  let name ← expectIdentifier
  return .named .fieldDesignator name.location name.lexeme

def expectBracketEnd : Parse Unit := discard (expectPunctuator .closeBracket "']'")

/-- The way from a type to a member inside it: a member, then members and indices. -/
def memberPath (deeper : Productions) : Parse (Array Node) := do
  let first ← fieldDesignator
  iterate #[first] fun path => do
    let place ← location
    if ← consume (.operator .dot) then return .yield (path.push (← fieldDesignator))
    else if ← consumePunctuator .openBracket then
      let index ← deeper.expression
      expectBracketEnd
      return .yield (path.push (.ofChildren .indexDesignator place [index]))
    else return .done path

def builtinOffsetof (deeper : Productions) : Parse Node := do
  let word ← advance
  discard (expectPunctuator .openParen "'(' after '__builtin_offsetof'")
  let type ← deeper.typeName
  expectComma
  let path ← memberPath deeper
  expectClosingParen
  return .ofChildren .builtinOffsetof word.location (type :: path.toList)

def name : Parse Node := do
  let token ← peek
  if ← isTypeName token.lexeme then giveUp token.location (.unexpectedTypeName token.lexeme)
  else
    discard advance
    return .named .identifier token.location token.lexeme

def truthValue (value : Bool) : Parse Node := do
  let word ← advance
  return .leaf .booleanLiteral word.location (.flag value)

def nullPointer : Parse Node := do
  let word ← advance
  return .leaf .nullptrLiteral word.location .none

def primary (deeper : Productions) : Parse Node := do
  match (← peek).kind with
  | .identifier => name
  | .literal .string => stringLiteral
  | .literal kind => literal kind
  | .keyword .trueWord => truthValue true
  | .keyword .falseWord => truthValue false
  | .keyword .nullptrWord => nullPointer
  | .punctuator .openParen => parenthesized deeper
  | .keyword .genericWord => genericSelection deeper
  | .keyword .builtinVaArgWord => builtinVaArg deeper
  | .keyword .builtinOffsetofWord => builtinOffsetof deeper
  | .keyword .builtinTypesCompatiblePWord => builtinTypesCompatible deeper
  | _ => unexpected "expression"

/-! ## What follows an operand -/

def callArguments (deeper : Productions) : Parse (Array Node) := do
  if ← atPunctuator .closeParen then return #[] else listOf deeper.assignment

/-- The expression that the current token makes of the one before it. -/
def addSuffix (deeper : Productions) (base : Node) : Parse (ForInStep Node) := do
  let token ← peek
  let place := token.location
  match token.kind with
  | .punctuator .openBracket =>
    discard advance
    let index ← deeper.expression
    expectBracketEnd
    return .yield (.ofChildren .subscript place [base, index])
  | .punctuator .openParen =>
    discard advance
    let arguments ← callArguments deeper
    discard (expectPunctuator .closeParen "')' after arguments")
    return .yield (.ofChildren .call place (base :: arguments.toList))
  | .operator .dot =>
    discard advance
    let member ← expectIdentifier
    return .yield ⟨.member, place, .name member.lexeme, [base]⟩
  | .operator .arrow =>
    discard advance
    let member ← expectIdentifier
    return .yield ⟨.arrow, place, .name member.lexeme, [base]⟩
  | .operator .increment =>
    discard advance
    return .yield (.ofChildren (.unary .laterStepUp) place [base])
  | .operator .decrement =>
    discard advance
    return .yield (.ofChildren (.unary .laterStepDown) place [base])
  | _ => return .done base

def withSuffixes (deeper : Productions) (base : Node) : Parse Node :=
  iterate base (addSuffix deeper)

def compoundLiteral (deeper : Productions) (place : SourceLocation) (type : Node) :
    Parse Node := do
  let values ← deeper.initializerList
  withSuffixes deeper (.ofChildren .compoundLiteral place [type, values])

/-! ## What precedes an operand -/

/-- `sizeof` and `_Alignof` take a type in parentheses or an operand, which may be a compound
literal. -/
def measure (deeper : Productions) (ofExpression ofType : NodeKind) : Parse Node := do
  let word ← advance
  let place := word.location
  if ← atParenthesizedType then
    let opening ← location
    let type ← deeper.parenthesizedTypeName
    if ← atPunctuator .openBrace then
      let operand ← compoundLiteral deeper opening type
      return .ofChildren ofExpression place [operand]
    else return .ofChildren ofType place [type]
  else
    let operand ← deeper.unary
    return .ofChildren ofExpression place [operand]

/-- The unary operator that an operator in front of a cast expression is. -/
def castOperator? : Operator → Option UnaryOperator
  | .ampersand => some .addressOf
  | .star => some .dereference
  | .plus => some .plus
  | .minus => some .minus
  | .tilde => some .bitNot
  | .bang => some .logicalNot
  | _ => none

/-- The current token is an operator in front of its operand, which `operand` reads. -/
def applied (operator : UnaryOperator) (operand : Parse Node) : Parse Node := do
  let symbol ← advance
  let inner ← operand
  return .ofChildren (.unary operator) symbol.location [inner]

/-- In GNU dialects two ampersands in front of a name take the address of a label. -/
def atLabelAddress : Parse Bool := do
  if (← isGnu) && (← atOperator .logicalAnd) then return (← peekAhead 1).isIdentifier
  else return false

def labelAddress : Parse Node := do
  let symbol ← advance
  let label ← advance
  return .named .labelAddress symbol.location label.lexeme

def suffixed (deeper : Productions) : Parse Node := do
  let base ← primary deeper
  withSuffixes deeper base

def unaryRule (deeper : Productions) : Parse Node := do
  if ← atLabelAddress then labelAddress
  else
    match (← peek).kind with
    | .operator .increment => applied .stepUp deeper.unary
    | .operator .decrement => applied .stepDown deeper.unary
    | .operator operator =>
      match castOperator? operator with
      | some unary => applied unary deeper.cast
      | none => suffixed deeper
    | .keyword .sizeofWord => measure deeper .sizeofExpression .sizeofType
    | .keyword .alignofWord => measure deeper .alignofExpression .alignofType
    | .keyword .extensionWord =>
      discard advance
      deeper.cast
    | _ => suffixed deeper

def castRule (deeper : Productions) : Parse Node := do
  if ← atParenthesizedType then
    let place ← location
    let type ← deeper.parenthesizedTypeName
    if ← atPunctuator .openBrace then compoundLiteral deeper place type
    else
      let operand ← deeper.cast
      return .ofChildren .cast place [type, operand]
  else deeper.unary

/-! ## Initializer lists -/

def indexDesignator (deeper : Productions) (place : SourceLocation) : Parse Node := do
  let low ← deeper.conditional
  let designator ←
    if ← consumePunctuator .ellipsis then
      let high ← deeper.conditional
      pure (Node.ofChildren .rangeDesignator place [low, high])
    else pure (Node.ofChildren .indexDesignator place [low])
  expectBracketEnd
  return designator

def designators (deeper : Productions) : Parse (Array Node) :=
  iterate #[] fun path => do
    let place ← location
    if ← consume (.operator .dot) then return .yield (path.push (← fieldDesignator))
    else if ← consumePunctuator .openBracket then
      return .yield (path.push (← indexDesignator deeper place))
    else return .done path

/-- In GNU dialects a member may be named with a colon behind it. -/
def atColonDesignator : Parse Bool := do
  let token ← peek
  if (← isGnu) && token.isIdentifier then return (← peekAhead 1).isPunctuator .colon
  else return false

def initializerItem (deeper : Productions) : Parse Node := do
  let start ← location
  if ← atColonDesignator then
    let field ← fieldDesignator
    discard advance
    let value ← deeper.initializer
    return .ofChildren .designation start [field, value]
  else
    let path ← designators deeper
    if path.isEmpty then deeper.initializer
    else
      discard (expect (.operator .assign) "'=' after designator")
      let value ← deeper.initializer
      return .ofChildren .designation start (path.push value).toList

/-- A comma may stand behind the last item. -/
def initializerListRule (deeper : Productions) : Parse Node := do
  let opening ← expectPunctuator .openBrace "'\x7b'"
  let items ← iterate #[] fun items => do
    if ← atPunctuator .closeBrace then return .done items
    else
      let items := items.push (← initializerItem deeper)
      if ← consumePunctuator .comma then return .yield items else return .done items
  discard (expectPunctuator .closeBrace "'\x7d' after initializer list")
  return .ofChildren .initializerList opening.location items.toList

end Productions

end CFrontEnd
