import CFrontEnd.Grammar.Lookahead
import CFrontEnd.Grammar.Specifiers
import CFrontEnd.Grammar.StringLiteral

/-!
The productions through which the grammar contains itself. A text may nest them only so deep. The
rules of the grammar take the productions that are left one level further in, and make of them the
productions of their own level; what is defined here needs no more than that.
-/

namespace CFrontEnd

/-- `specifiers` is told whether storage classes may stand there. -/
structure Productions where
  assignment : Parse Node
  conditional : Parse Node
  cast : Parse Node
  unary : Parse Node
  initializerList : Parse Node
  statement : Parse Node
  specifiers : Bool → Parse DeclarationSpecifiers
  declarator : DeclaratorForm → Parse Declarator

namespace Productions

/-- What a production does where no further level is left. -/
def tooDeep {α : Type} : Parse α := do Parse.giveUp (← Parse.location) .nestedTooDeeply

/-- The productions where no further level is left. -/
def exhausted : Productions where
  assignment := tooDeep
  conditional := tooDeep
  cast := tooDeep
  unary := tooDeep
  initializerList := tooDeep
  statement := tooDeep
  specifiers _ := tooDeep
  declarator _ := tooDeep

open Parse

/-- Expressions with commas between them are one, grouped from the left. -/
def expression (deeper : Productions) : Parse Node := do
  let first ← deeper.assignment
  iterate first fun left => do
    let place ← location
    if ← consumePunctuator .comma then
      let right ← deeper.assignment
      return .yield (.ofChildren .comma place [left, right])
    else return .done left

/-- The name of a type, as in a cast. -/
def typeName (deeper : Productions) : Parse Node := do
  let specifiers ← deeper.specifiers false
  if !specifiers.isPresent then unexpected "type name"
  else
    let base ← baseType specifiers
    let declarator ← deeper.declarator .abstract
    return declarator.type base

def initializer (deeper : Productions) : Parse Node := do
  if ← atPunctuator .openBrace then deeper.initializerList else deeper.assignment

def parenthesizedTypeName (deeper : Productions) : Parse Node := do
  discard advance
  let type ← deeper.typeName
  expectClosingParen
  return type

/-- The current token begins a static assertion. -/
def staticAssertion (deeper : Productions) : Parse Node := do
  let start ← location
  discard advance
  discard (expectPunctuator .openParen "'(' after 'static_assert'")
  let condition ← deeper.conditional
  let message ← if ← consumePunctuator .comma then some <$> stringLiteral else pure none
  expectClosingParen
  expectSemicolon "static assertion"
  return .ofChildren .staticAssertion start (condition :: message.toList)

end Productions

end CFrontEnd
