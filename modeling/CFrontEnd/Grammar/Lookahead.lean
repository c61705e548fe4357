import CFrontEnd.Grammar.Parse

/-!
What a token can begin. Whether a block item is a declaration is decided by the first token after
attributes and `__extension__`, without moving and without a problem.
-/

namespace CFrontEnd

namespace Keyword

def beginsType : Keyword → Bool
  | .voidWord | .charWord | .shortWord | .intWord | .longWord | .floatWord | .doubleWord
  | .signedWord | .unsignedWord | .boolWord | .complexWord | .imaginaryWord | .int128Word
  | .float16Word | .float32Word | .float64Word | .float128Word | .float32xWord | .float64xWord
  | .decimal32Word | .decimal64Word | .decimal128Word | .autoTypeWord | .structWord | .unionWord
  | .enumWord | .constWord | .volatileWord | .restrictWord | .atomicWord | .typeofWord
  | .typeofUnqualWord | .bitIntWord => true
  | _ => false

def beginsDeclaration (word : Keyword) : Bool :=
  word.beginsType || match word with
    | .typedefWord | .externWord | .staticWord | .autoWord | .registerWord | .constexprWord
    | .threadLocalWord | .inlineWord | .noreturnWord | .alignasWord | .staticAssertWord
    | .labelWord => true
    | _ => false

end Keyword

namespace TokenStream

/-- The place after the bracket that closes the `depth`th of the brackets open at `position`, or the
place where the tokens end and that they do. -/
def afterBalanced (stream : TokenStream) (opener closer : Punctuator) (depth position : Nat) :
    Nat × Bool :=
  if h : position < stream.body.size then
    let token := stream.body[position]
    if token.isEndOfFile then (position, false)
    else if token.isPunctuator opener then
      afterBalanced stream opener closer (depth + 1) (position + 1)
    else if token.isPunctuator closer then
      if depth ≤ 1 then (position + 1, true)
      else afterBalanced stream opener closer (depth - 1) (position + 1)
    else afterBalanced stream opener closer depth (position + 1)
  else (position, false)
termination_by stream.body.size - position

/-- Whether two opening square brackets, which begin an attribute, stand at `position`. -/
def startsBrackets (stream : TokenStream) (position : Nat) : Bool :=
  (stream.get position).isPunctuator .openBracket
    && (stream.get (position + 1)).isPunctuator .openBracket

/-- The place after the attributes that begin at `position`. An attribute that is not closed reaches
to the end. -/
def afterAttributes (stream : TokenStream) (position : Nat) : Nat :=
  let reached :=
    if (stream.get position).isKeyword .attributeWord
        && (stream.get (position + 1)).isPunctuator .openParen then
      some (stream.afterBalanced .openParen .closeParen 0 (position + 1))
    else if stream.startsBrackets position then
      some (stream.afterBalanced .openBracket .closeBracket 0 position)
    else none
  match reached with
  | none => position
  | some (next, closed) =>
    if _ : closed ∧ stream.remaining next < stream.remaining position then
      afterAttributes stream next
    else next
termination_by stream.remaining position
decreasing_by exact And.right ‹_›

/-- The place after the words `__extension__` that stand at `position`. -/
def afterExtensions (stream : TokenStream) (position : Nat) : Nat :=
  if h : position < stream.body.size then
    if stream.body[position].isKeyword .extensionWord then afterExtensions stream (position + 1)
    else position
  else position
termination_by stream.body.size - position

end TokenStream

namespace Parse

/-- Whether `token` can begin the name of a type. -/
def isTypeStart (token : Token) : Parse Bool :=
  match token.kind with
  | .keyword word => return word.beginsType
  | .identifier => isTypeName token.lexeme
  | _ => return false

/-- Whether a type name in parentheses may begin at the current token. -/
def atParenthesizedType : Parse Bool := do
  if ← atPunctuator .openParen then isTypeStart (← peekAhead 1) else return false

/-- Whether the next block item is a declaration. A name with a colon behind it is a label, even if
it names a type. -/
def startsDeclaration : Parse Bool := fun context state =>
  let tokens := context.tokens
  let place := tokens.afterAttributes (tokens.afterExtensions state.position)
  let token := tokens.get place
  let answer := match token.kind with
    | .keyword word => word.beginsDeclaration
    | .identifier =>
      context.language.isTypeName state.scopes.isTypedefName token.lexeme
        && !(tokens.get (place + 1)).isPunctuator .colon
    | _ => false
  .ok answer state

/-- Moves past the bracket that closes the `depth`th open one. -/
def skipBalanced (opener closer : Punctuator) (depth : Nat) : Parse Unit := do
  let closed ← (fun context state =>
    let (position, closed) := context.tokens.afterBalanced opener closer depth state.position
    .ok closed { state with position := position } : Parse Bool)
  if !closed then unexpected "closing bracket"

def atBrackets : Parse Bool := fun context state =>
  .ok (context.tokens.startsBrackets state.position) state

/-- Attributes of both forms, `__attribute__((…))` and `[[…]]`, are accepted and dropped. -/
def skipAttributes : Parse Unit :=
  iterate () fun _ => do
    if ← consume (.keyword .attributeWord) then
      discard (expectPunctuator .openParen "'(' after '__attribute__'")
      skipBalanced .openParen .closeParen 1
      return .yield ()
    else if ← atBrackets then
      discard advance
      discard advance
      skipBalanced .openBracket .closeBracket 2
      return .yield ()
    else return .done ()

def skipExtensions : Parse Unit :=
  iterate () fun _ => do
    if ← consume (.keyword .extensionWord) then return .yield () else return .done ()

end Parse

end CFrontEnd
