import CFrontEnd.Grammar.Rules.Expressions

/-!
Statements.
-/

namespace CFrontEnd

namespace Productions

open Parse

/-! ## Parts of statements -/

/-- A condition in parentheses behind `word`. -/
def parenthesizedCondition (deeper : Productions) (word : String) : Parse Node := do
  discard (expectPunctuator .openParen ("'(' after '" ++ word ++ "'"))
  let condition ← deeper.expression
  expectClosingParen
  return condition

/-- What a label stands in front of: the end of the block, a declaration or a statement. -/
def labelBody (deeper : Productions) : Parse Node := do
  if ← atPunctuator .closeBrace then return .leaf .empty (← location) .none
  else if ← startsDeclaration then groupedDeclaration deeper
  else deeper.statement

/-- An expression, or an empty node where the token that ends it already stands. -/
def optionalExpression (deeper : Productions) (ending : Punctuator) : Parse Node := do
  if ← atPunctuator ending then return .leaf .empty (← location) .none else deeper.expression

/-! ## Statements by their first word -/

def ifStatement (deeper : Productions) : Parse Node := do
  let word ← advance
  let condition ← parenthesizedCondition deeper "if"
  let taken ← deeper.statement
  let otherwise ←
    if ← consume (.keyword .elseWord) then some <$> deeper.statement else pure none
  return .ofChildren .ifStatement word.location (condition :: taken :: otherwise.toList)

def whileLoop (deeper : Productions) : Parse Node := do
  let word ← advance
  let condition ← parenthesizedCondition deeper "while"
  let body ← deeper.statement
  return .ofChildren .whileLoop word.location [condition, body]

def doWhileLoop (deeper : Productions) : Parse Node := do
  let word ← advance
  let body ← deeper.statement
  discard (expect (.keyword .whileWord) "'while' in do/while loop")
  let condition ← parenthesizedCondition deeper "while"
  expectSemicolon "do/while statement"
  return .ofChildren .doWhileLoop word.location [body, condition]

def expectForSemicolon : Parse Unit :=
  discard (expectPunctuator .semicolon "';' in 'for' statement")

/-- The beginning of a loop with the semicolon behind it, which a declaration has itself. -/
def forBeginning (deeper : Productions) : Parse Node := do
  if !(← atPunctuator .semicolon) && (← startsDeclaration) then groupedDeclaration deeper
  else
    let beginning ← optionalExpression deeper .semicolon
    expectForSemicolon
    return beginning

/-- The scope of what the loop declares ends with the loop. -/
def forLoop (deeper : Productions) : Parse Node := do
  let word ← advance
  inNewScope do
    discard (expectPunctuator .openParen "'(' after 'for'")
    let beginning ← forBeginning deeper
    let condition ← optionalExpression deeper .semicolon
    expectForSemicolon
    let step ← optionalExpression deeper .closeParen
    expectClosingParen
    let body ← deeper.statement
    return .ofChildren .forLoop word.location [beginning, condition, step, body]

def switchStatement (deeper : Productions) : Parse Node := do
  let word ← advance
  let value ← parenthesizedCondition deeper "switch"
  let body ← deeper.statement
  return .ofChildren .switchStatement word.location [value, body]

def caseLabel (deeper : Productions) : Parse Node := do
  let word ← advance
  let low ← deeper.conditional
  let high ←
    if ← consumeInGnu (.punctuator .ellipsis) then some <$> deeper.conditional else pure none
  discard (expectPunctuator .colon "':' after 'case'")
  let body ← labelBody deeper
  return .ofChildren .caseLabel word.location (low :: high.toList ++ [body])

def defaultLabel (deeper : Productions) : Parse Node := do
  let word ← advance
  discard (expectPunctuator .colon "':' after 'default'")
  let body ← labelBody deeper
  return .ofChildren .defaultLabel word.location [body]

def returnStatement (deeper : Productions) : Parse Node := do
  let word ← advance
  let value ← if ← atPunctuator .semicolon then pure none else some <$> deeper.expression
  expectSemicolon "return statement"
  return .ofChildren .returnStatement word.location value.toList

/-- `break` or `continue`. -/
def jump (kind : NodeKind) : Parse Node := do
  let word ← advance
  expectSemicolon word.text
  return .leaf kind word.location .none

def gotoStatement (deeper : Productions) : Parse Node := do
  let word ← advance
  let node ←
    if ← consumeInGnu (.operator .star) then
      let address ← deeper.expression
      pure (Node.ofChildren .indirectGoto word.location [address])
    else
      let label ← expectIdentifier
      pure (Node.named .gotoStatement word.location label.lexeme)
  expectSemicolon "goto statement"
  return node

/-! ## Other statements -/

def atLabel : Parse Bool := do
  if (← peek).isIdentifier then return (← peekAhead 1).isPunctuator .colon else return false

def labeledStatement (deeper : Productions) : Parse Node := do
  let label ← advance
  discard advance
  skipAttributes
  let body ← labelBody deeper
  return ⟨.labeled, label.location, .name label.lexeme, [body]⟩

def expressionStatement (deeper : Productions) : Parse Node := do
  let start ← location
  let expression ← deeper.expression
  expectSemicolon "expression"
  return .ofChildren .expressionStatement start [expression]

def emptyStatement : Parse Node := do
  let semicolon ← advance
  return .leaf .empty semicolon.location .none

def statementRule (deeper : Productions) : Parse Node := do
  skipAttributes
  match (← peek).kind with
  | .punctuator .openBrace => block deeper
  | .punctuator .semicolon => emptyStatement
  | .keyword .ifWord => ifStatement deeper
  | .keyword .whileWord => whileLoop deeper
  | .keyword .doWord => doWhileLoop deeper
  | .keyword .forWord => forLoop deeper
  | .keyword .switchWord => switchStatement deeper
  | .keyword .caseWord => caseLabel deeper
  | .keyword .defaultWord => defaultLabel deeper
  | .keyword .returnWord => returnStatement deeper
  | .keyword .breakWord => jump .breakStatement
  | .keyword .continueWord => jump .continueStatement
  | .keyword .gotoWord => gotoStatement deeper
  | .keyword .asmWord => assembly deeper
  | _ => if ← atLabel then labeledStatement deeper else expressionStatement deeper

end Productions

end CFrontEnd
