import CFrontEnd.Grammar.Productions

/-!
Declarators. One token behind an opening parenthesis decides whether it encloses a declarator or
begins a list of parameters.
-/

namespace CFrontEnd

namespace Productions

open Parse

/-! ## Parameters -/

structure ParameterList where
  nodes : Array Node := #[]
  isVariadic : Bool := false
  isPrototyped : Bool := true

def parameterDeclaration (deeper : Productions) : Parse Node := do
  let start ← location
  let specifiers ← deeper.specifiers true
  if !specifiers.isPresent then
    let token ← peek
    if token.isIdentifier then giveUp token.location (.unknownTypeName token.lexeme)
    else unexpected "parameter declaration"
  else
    if specifiers.isTypedef || specifiers.storage.any (· != .register) then
      complain start .parameterStorage
    let base ← baseType specifiers
    let declarator ← deeper.declarator .either
    skipAttributes
    if let some name := declarator.name then addOrdinary name
    let place := if declarator.name.isSome then declarator.location else start
    return ⟨.parameterDeclaration, place,
      .declaration { name := declarator.name, storage := specifiers.storage },
      [declarator.type base]⟩

/-- A name that is no type stands in front of a comma or the end only in lists without types. -/
def atOldStyleParameters : Parse Bool := do
  let token ← peek
  let next ← peekAhead 1
  if token.isIdentifier && (next.isPunctuator .comma || next.isPunctuator .closeParen) then
    return !(← isTypeName token.lexeme)
  else return false

/-- An ellipsis is the last of the parameters. -/
def addParameter (deeper : Productions) (list : ParameterList) :
    Parse (ForInStep ParameterList) := do
  if ← consumePunctuator .ellipsis then return .done { list with isVariadic := true }
  else
    let node ← parameterDeclaration deeper
    let list : ParameterList := { list with nodes := list.nodes.push node }
    if ← consumePunctuator .comma then return .yield list else return .done list

/-- The parameters up to the closing parenthesis. -/
def parameters (deeper : Productions) : Parse ParameterList := iterate {} (addParameter deeper)

/-- The opening parenthesis is behind. Without any parameters the list says nothing about them;
`void` says that there are none. -/
def parameterList (deeper : Productions) : Parse ParameterList := do
  if ← consumePunctuator .closeParen then return { isPrototyped := false }
  else
    let token ← peek
    let next ← peekAhead 1
    if token.isKeyword .voidWord && next.isPunctuator .closeParen then
      discard advance
      discard advance
      return {}
    else if ← atOldStyleParameters then giveUp token.location .oldStyleParameters
    else
      let list ← parameters deeper
      discard (expectPunctuator .closeParen "')' after parameters")
      return list

def functionDerivation (deeper : Productions) : Parse TypeDerivation := do
  let place ← location
  discard advance
  let list ← inNewScope (parameterList deeper)
  return .function place list.nodes.toList list.isVariadic list.isPrototyped

/-! ## Arrays -/

/-- What may stand in front of the length. -/
structure ArrayWords where
  qualifiers : Qualifiers := {}
  isStatic : Bool := false

def arrayWords : Parse ArrayWords :=
  iterate {} fun words => do
    match (← peek).kind with
    | .keyword .staticWord =>
      discard advance
      return .yield { words with isStatic := true }
    | .keyword word =>
      match words.qualifiers.add? word with
      | some qualifiers =>
        discard advance
        return .yield { words with qualifiers := qualifiers }
      | none => return .done words
    | _ => return .done words

/-- A star alone leaves the length open. -/
def atOpenLength : Parse Bool := do
  if ← atOperator .star then return (← peekAhead 1).isPunctuator .closeBracket else return false

def expectClosingBracket : Parse Unit := discard (expectPunctuator .closeBracket "']'")

def arrayDerivation (deeper : Productions) : Parse TypeDerivation := do
  let place ← location
  discard advance
  let words ← arrayWords
  let isStar ← atOpenLength
  if isStar then discard advance
  let length ←
    if ← atPunctuator .closeBracket then pure none
    else some <$> deeper.assignment
  expectClosingBracket
  return .array place words.qualifiers words.isStatic isStar length

/-! ## Declarators -/

def addPointerQualifier (qualifiers : Qualifiers) : Parse (ForInStep Qualifiers) := do
  match (← peek).kind with
  | .keyword .attributeWord =>
    skipAttributes
    return .yield qualifiers
  | .keyword word =>
    match qualifiers.add? word with
    | some qualifiers =>
      discard advance
      return .yield qualifiers
    | none => return .done qualifiers
  | _ => return .done qualifiers

def pointerQualifiers : Parse Qualifiers := iterate {} addPointerQualifier

def addPointer (nearest : List TypeDerivation) : Parse (ForInStep (List TypeDerivation)) := do
  let place ← location
  if ← consume (.operator .star) then
    let qualifiers ← pointerQualifiers
    return .yield (.pointer place qualifiers :: nearest)
  else return .done nearest

/-- The stars in front, the last one first. -/
def pointers : Parse (List TypeDerivation) := iterate [] addPointer

/-- Whether the opening parenthesis before `next` encloses a declarator. -/
def enclosesDeclarator (form : DeclaratorForm) (next : Token) : Parse Bool :=
  if form = .named then return true
  else
    match next.kind with
    | .operator .star | .punctuator .openParen | .punctuator .openBracket
    | .keyword .attributeWord => return true
    | .identifier =>
      if form = .either then return !(← isTypeName next.lexeme) else return false
    | _ => return false

def atEnclosedDeclarator (form : DeclaratorForm) : Parse Bool := do
  if ← atPunctuator .openParen then enclosesDeclarator form (← peekAhead 1) else return false

/-- The name, or what parentheses enclose in its place. -/
def declaratorCore (deeper : Productions) (form : DeclaratorForm) : Parse Declarator := do
  if ← atEnclosedDeclarator form then
    discard advance
    skipAttributes
    let inner ← deeper.declarator form
    expectClosingParen
    return inner
  else
    let token ← peek
    if token.isIdentifier && form != .abstract then
      discard advance
      return { name := some token.lexeme, location := token.location }
    else if form = .named then unexpected "identifier or '('"
    else return { name := none, location := token.location }

/-- Two opening brackets begin an attribute and no array. -/
def addDerivation (deeper : Productions) (declarator : Declarator) :
    Parse (ForInStep Declarator) := do
  let token ← peek
  if token.isPunctuator .openBracket && !(← atBrackets) then
    let derivation ← arrayDerivation deeper
    return .yield (declarator.append [derivation])
  else if token.isPunctuator .openParen then
    let derivation ← functionDerivation deeper
    return .yield (declarator.append [derivation])
  else return .done declarator

/-- The name with the arrays and functions behind it. -/
def directDeclarator (deeper : Productions) (form : DeclaratorForm) : Parse Declarator := do
  let core ← declaratorCore deeper form
  iterate core (addDerivation deeper)

def declaratorRule (deeper : Productions) (form : DeclaratorForm) : Parse Declarator := do
  let pointers ← pointers
  let declarator ← directDeclarator deeper form
  return declarator.append pointers

end Productions

end CFrontEnd
