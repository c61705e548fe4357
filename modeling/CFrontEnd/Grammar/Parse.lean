import CFrontEnd.Diagnostic
import CFrontEnd.Grammar.Problem
import CFrontEnd.Language.Dialect
import CFrontEnd.Language.Table
import CFrontEnd.Token.Stream
import CFrontEnd.Tree.Node

/-!
What the productions of the grammar are made of. A production reads tokens from the current one on
and moves past those it uses. One that cannot go on records a problem and gives up; what it has done
to the state until then stays done. From there to the point where parsing resumes no further problem
is recorded.
-/

namespace CFrontEnd

structure ParseContext where
  tokens : TokenStream
  language : Language
  dialect : Dialect

/-- `dropped` counts the problems that were met before parsing had resumed after another one, and
`stalled` the repetitions that were ended because a step had used up no token. -/
structure ParseState where
  position : Nat := 0
  scopes : ScopeStack := .initial
  diagnostics : Diagnostics
  panicking : Bool := false
  dropped : Nat := 0
  stalled : Nat := 0

/-- How many tokens are left, the end of file included. -/
def ParseState.remaining (state : ParseState) (context : ParseContext) : Nat :=
  context.tokens.remaining state.position

/-- After a problem that is not recorded. -/
def ParseState.drop (state : ParseState) : ParseState :=
  { state with dropped := state.dropped + 1 }

/-- After a repetition that was ended from outside. -/
def ParseState.stall (state : ParseState) : ParseState :=
  { state with stalled := state.stalled + 1 }

/-- What is left of a production that gave up. Its problem has been recorded. -/
inductive GivenUp
  | givenUp
  deriving DecidableEq, Repr

abbrev Parse := ReaderT ParseContext (EStateM GivenUp ParseState)

namespace Parse

variable {α : Type}

/-! ## Tokens -/

def peek : Parse Token := fun context state =>
  .ok (context.tokens.get state.position) state

def peekAhead (distance : Nat) : Parse Token := fun context state =>
  .ok (context.tokens.get (state.position + distance)) state

/-- The current token, which is left behind unless it is the end of file. -/
def advance : Parse Token := fun context state =>
  let token := context.tokens.get state.position
  .ok token (if token.isEndOfFile then state else { state with position := state.position + 1 })

def position : Parse Nat := fun _ state => .ok state.position state

def location : Parse SourceLocation := return (← peek).location

def atEnd : Parse Bool := return (← peek).isEndOfFile

def atPunctuator (punctuator : Punctuator) : Parse Bool := return (← peek).isPunctuator punctuator

def atOperator (operator : Operator) : Parse Bool := return (← peek).isOperator operator

def atKeyword (word : Keyword) : Parse Bool := return (← peek).isKeyword word

/-- Moves past the current token if it is of the given kind, and says whether it was. -/
def consume (kind : TokenKind) : Parse Bool := do
  if (← peek).kind == kind then
    discard advance
    return true
  else return false

def consumePunctuator (punctuator : Punctuator) : Parse Bool := consume (.punctuator punctuator)

/-! ## Names and dialect -/

def isTypeName (name : String) : Parse Bool := fun context state =>
  .ok (context.language.isTypeName state.scopes.isTypedefName name) state

def isGnu : Parse Bool := fun context state => .ok context.dialect.gnu state

/-- Implicit types were dropped from the language after the first standard. -/
def afterC89 : Parse Bool := fun context state =>
  .ok (decide (Standard.c89 < context.dialect.standard)) state

def consumeInGnu (kind : TokenKind) : Parse Bool := do
  if ← isGnu then consume kind else return false

def scopes : Parse ScopeStack := fun _ state => .ok state.scopes state

def modifyScopes (change : ScopeStack → ScopeStack) : Parse Unit := fun _ state =>
  .ok () { state with scopes := change state.scopes }

def addOrdinary (name : String) : Parse Unit := modifyScopes fun scopes => scopes.addOrdinary name

/-! ## Problems -/

/-- Records a problem that does not keep the production from going on. -/
def complain (location : SourceLocation) (problem : GrammarProblem) : Parse Unit := fun _ state =>
  if state.panicking then .ok () state.drop
  else
    .ok () { state with
      diagnostics := state.diagnostics.report .grammatical location problem.message }

/-- Records a problem and gives up. -/
def giveUp (location : SourceLocation) (problem : GrammarProblem) : Parse α := fun _ state =>
  if state.panicking then .error .givenUp state.drop
  else
    .error .givenUp
      { state with
        diagnostics := state.diagnostics.report .grammatical location problem.message
        panicking := true }

/-- Gives up because the current token is not what the grammar asks for. -/
def unexpected (what : String) : Parse α := do
  let token ← peek
  giveUp token.location (.expected what token)

def expect (kind : TokenKind) (what : String) : Parse Token := do
  if (← peek).kind == kind then advance else unexpected what

def expectPunctuator (punctuator : Punctuator) (what : String) : Parse Token :=
  expect (.punctuator punctuator) what

def expectIdentifier : Parse Token := expect .identifier "identifier"

def optionalIdentifier : Parse (Option Token) := do
  if (← peek).isIdentifier then some <$> advance else return none

def expectSemicolon (what : String) : Parse Unit :=
  discard (expectPunctuator .semicolon ("';' after " ++ what))

def expectClosingParen : Parse Unit := discard (expectPunctuator .closeParen "')'")

/-! ## Control -/

/-- The outcome of a production, or nothing where it gives up. -/
def attempt (production : Parse α) : Parse (Option α) := fun context state =>
  match production context state with
  | .ok value next => .ok (some value) next
  | .error _ next => .ok none next

/-- Runs a production in a scope of its own, which is left again even where the production gives
up. -/
def inNewScope (production : Parse α) : Parse α := fun context state =>
  match production context { state with scopes := state.scopes.enter } with
  | .ok value next => .ok value { next with scopes := next.scopes.exit }
  | .error reason next => .error reason { next with scopes := next.scopes.exit }

/-- Repeats `step` until it is done. A step that wants another one has used up a token, so the
tokens that are left bound the repetition; one that has not ends it. -/
@[specialize] def repeatFrom (step : α → Parse (ForInStep α)) (value : α) (context : ParseContext)
    (state : ParseState) : EStateM.Result GivenUp ParseState α :=
  match step value context state with
  | .ok (.done result) next => .ok result next
  | .ok (.yield result) next =>
    if next.remaining context < state.remaining context then repeatFrom step result context next
    else .ok result next.stall
  | .error reason next => .error reason next
termination_by state.remaining context

@[inline] def iterate (start : α) (step : α → Parse (ForInStep α)) : Parse α :=
  repeatFrom step start

end Parse

end CFrontEnd
