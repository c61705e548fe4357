import CFrontEnd.Grammar.Productions
import CFrontEnd.Grammar.Recovery

/-!
The specifiers of declarations, with the types that are written out there: tags with their members,
enumerations, and the types made by `typeof`, `_Atomic` and `_BitInt`.
-/

namespace CFrontEnd

/-- Whether the word names a storage class or stands in the place of one. -/
def Keyword.isStorageWord (word : Keyword) : Bool :=
  word == .typedefWord || word.storageClass?.isSome

namespace Productions

open Parse

/-! ## Tags -/

/-- A tag that is only mentioned is any tag of its name in scope; one with members belongs to the
innermost scope. -/
def declareTag (kind : TagKind) (name : String) (place : SourceLocation) (hasBody : Bool) :
    Parse Unit := do
  let scopes ← scopes
  match if hasBody then none else scopes.lookupTag? name with
  | some earlier => if earlier ≠ kind then complain place (.tagOfOtherKind name)
  | none =>
    match scopes.addTag kind name with
    | .ok changed => modifyScopes fun _ => changed
    | .error earlier => complain place (.tagRedeclared name earlier)

/-- A type without a tag has members. -/
def declareTag? (kind : TagKind) (name : Option String) (place : SourceLocation)
    (hasBody : Bool) : Parse Unit :=
  match name with
  | some name => declareTag kind name place hasBody
  | none => if hasBody then return () else unexpected "'\x7b' or tag name"

def tagName : Parse (Option String) := do
  skipAttributes
  return (← optionalIdentifier).map Token.lexeme

def expectClosingBrace : Parse Unit := discard (expectPunctuator .closeBrace "'\x7d'")

def endOfBody : Parse Unit := do
  expectClosingBrace
  skipAttributes

/-! ## Structures and unions -/

def fieldDeclaration (place : SourceLocation) (name : Option String) (type : Node)
    (specifiers : DeclarationSpecifiers) (width : Option Node) : Node :=
  ⟨.fieldDeclaration, place, .declaration { name := name },
    type :: specifiers.alignments.toList ++ width.toList⟩

/-- A bit-field need not have a declarator. -/
def memberDeclarator (deeper : Productions) (specifiers : DeclarationSpecifiers) (base : Node) :
    Parse Node := do
  let place ← location
  let isUnnamed ← atPunctuator .colon
  let declarator ← if isUnnamed then pure ⟨none, place, []⟩ else deeper.declarator .named
  let width ← if ← consumePunctuator .colon then some <$> deeper.conditional else pure none
  skipAttributes
  return fieldDeclaration declarator.location declarator.name (declarator.type base) specifiers
    width

/-- Without a declarator the members of a structure or union inside belong to the outer one. -/
def memberDeclaration (deeper : Productions) : Parse Items := do
  if ← consumePunctuator .semicolon then return {}
  else if ← atKeyword .staticAssertWord then single deeper.staticAssertion
  else
    let start ← location
    let specifiers ← deeper.specifiers false
    if !specifiers.isPresent then unexpected "member declaration"
    else
      let base ← baseType specifiers
      if ← consumePunctuator .semicolon then
        return { nodes := #[fieldDeclaration start none base specifiers none] }
      else
        let members ← separatedItems (memberDeclarator deeper specifiers base)
        thenFinish members (expectSemicolon "member declaration")

def members (deeper : Productions) : Parse (Array Node) := do
  discard advance
  let nodes ← recoveringItems (fun token => token.isPunctuator .closeBrace)
    (memberDeclaration deeper)
  endOfBody
  return nodes

def structOrUnion (deeper : Productions) : Parse Node := do
  let word ← advance
  let isStruct := word.isKeyword .structWord
  let name ← tagName
  let hasBody ← atPunctuator .openBrace
  declareTag? (if isStruct then .structTag else .unionTag) name word.location hasBody
  let nodes ← if hasBody then members deeper else pure #[]
  return ⟨if isStruct then .structType else .unionType, word.location, .tag name hasBody,
    nodes.toList⟩

/-! ## Enumerations -/

/-- An enumerator is in scope after its own value. -/
def enumerator (deeper : Productions) : Parse Node := do
  let name ← expectIdentifier
  skipAttributes
  let value ← if ← consume (.operator .assign) then some <$> deeper.conditional else pure none
  addOrdinary name.lexeme
  return ⟨.enumConstant, name.location, .name name.lexeme, value.toList⟩

/-- A comma may stand behind the last enumerator. -/
def enumerators (deeper : Productions) : Parse (Array Node) := do
  discard advance
  let nodes ← iterate #[] fun nodes => do
    let nodes := nodes.push (← enumerator deeper)
    if !(← consumePunctuator .comma) then return .done nodes
    else if ← atPunctuator .closeBrace then return .done nodes
    else return .yield nodes
  endOfBody
  return nodes

/-- A colon that no type follows begins the width of a bit-field. -/
def underlyingType (deeper : Productions) : Parse (Option Node) := do
  if ← atPunctuator .colon then
    if ← isTypeStart (← peekAhead 1) then
      discard advance
      some <$> deeper.typeName
    else return none
  else return none

def enumeration (deeper : Productions) : Parse Node := do
  let word ← advance
  let name ← tagName
  let underlying ← underlyingType deeper
  let hasBody ← atPunctuator .openBrace
  declareTag? .enumTag name word.location hasBody
  let constants ← if hasBody then enumerators deeper else pure #[]
  return ⟨.enumType, word.location, .tag name hasBody,
    underlying.toList ++ constants.toList⟩

/-! ## Types with an operand -/

/-- The name of a type, or else what `production` reads. -/
def typeNameOr (deeper : Productions) (production : Parse Node) : Parse Node := do
  if ← isTypeStart (← peek) then deeper.typeName else production

def alignment (deeper : Productions) : Parse Node := do
  let word ← advance
  discard (expectPunctuator .openParen "'(' after '_Alignas'")
  let operand ← typeNameOr deeper deeper.conditional
  expectClosingParen
  return .ofChildren .alignment word.location [operand]

def typeofType (deeper : Productions) : Parse Node := do
  let word ← advance
  discard (expectPunctuator .openParen "'(' after 'typeof'")
  let operand ← typeNameOr deeper deeper.expression
  expectClosingParen
  return ⟨.typeofType, word.location, .flag (word.isKeyword .typeofUnqualWord), [operand]⟩

def atomicType (deeper : Productions) : Parse Node := do
  let word ← advance
  let type ← deeper.parenthesizedTypeName
  return .ofChildren .atomicType word.location [type]

def bitIntType (deeper : Productions) : Parse Node := do
  let word ← advance
  discard (expectPunctuator .openParen "'(' after '_BitInt'")
  let width ← deeper.conditional
  expectClosingParen
  return ⟨.bitIntType, word.location, .flag false, [width]⟩

/-- The type that begins with `word` and is not made of words. -/
def namedType? (deeper : Productions) (word : Keyword) (next : Token) : Option (Parse Node) :=
  match word with
  | .structWord | .unionWord => some (structOrUnion deeper)
  | .enumWord => some (enumeration deeper)
  | .typeofWord | .typeofUnqualWord => some (typeofType deeper)
  | .bitIntWord => some (bitIntType deeper)
  | .atomicWord => if next.isPunctuator .openParen then some (atomicType deeper) else none
  | _ => none

/-! ## Specifiers -/

/-- Of several types the first counts. -/
def addNamedType (specifiers : DeclarationSpecifiers) (token : Token) (type : Node) :
    Parse DeclarationSpecifiers := do
  if specifiers.named.isSome then
    complain token.location .multipleTypes
    return specifiers
  else return { specifiers with named := some type }

/-- Of several storage classes the first counts. -/
def addStorage (specifiers : DeclarationSpecifiers) (token : Token) (word : Keyword)
    (admitsStorage : Bool) : Parse DeclarationSpecifiers := do
  if !admitsStorage then
    complain token.location (.unexpectedStorageClass token)
    return specifiers
  else if specifiers.hasStorage then
    complain token.location .multipleStorageClasses
    return specifiers
  else
    return { specifiers with
      isTypedef := word == .typedefWord
      storage := word.storageClass? }

/-- A specifier of one word, which the word adds to those in front of it; none, if it is not one. -/
def addWord? (specifiers : DeclarationSpecifiers) (token : Token) (word : Keyword)
    (admitsStorage : Bool) : Option (Parse DeclarationSpecifiers) :=
  match specifiers.qualifiers.add? word, word with
  | some qualifiers, _ => some (return { specifiers with qualifiers := qualifiers })
  | none, .inlineWord => some (return { specifiers with isInline := true })
  | none, .noreturnWord => some (return { specifiers with isNoreturn := true })
  | none, .threadLocalWord => some do
    if !admitsStorage then complain token.location (.unexpected token)
    return { specifiers with isThreadLocal := true }
  | none, word =>
    if word.isStorageWord then some (addStorage specifiers token word admitsStorage)
    else if word.beginsType then
      some (return { specifiers with words := specifiers.words.push word })
    else none

/-- Attributes and `__extension__` among the specifiers are dropped and do not count as one. -/
def addSpecifier (deeper : Productions) (admitsStorage : Bool)
    (specifiers : DeclarationSpecifiers) : Parse (ForInStep DeclarationSpecifiers) := do
  let token ← peek
  let present := { specifiers with isPresent := true }
  match token.kind with
  | .keyword .attributeWord =>
    skipAttributes
    return .yield specifiers
  | .keyword .extensionWord =>
    discard advance
    return .yield specifiers
  | .keyword .alignasWord =>
    let node ← alignment deeper
    return .yield { present with alignments := present.alignments.push node }
  | .keyword word =>
    match namedType? deeper word (← peekAhead 1) with
    | some production =>
      let type ← production
      .yield <$> addNamedType present token type
    | none =>
      match addWord? present token word admitsStorage with
      | some addition =>
        discard advance
        .yield <$> addition
      | none => return .done specifiers
  | .identifier =>
    let isFirst := specifiers.named.isNone && specifiers.words.isEmpty
    if isFirst && (← isTypeName token.lexeme) then
      discard advance
      let type := Node.named .typedefName token.location token.lexeme
      return .yield { present with named := some type }
    else return .done specifiers
  | _ =>
    if ← atBrackets then
      skipAttributes
      return .yield specifiers
    else return .done specifiers

def specifiersRule (deeper : Productions) (admitsStorage : Bool) :
    Parse DeclarationSpecifiers := do
  iterate { location := ← location } (addSpecifier deeper admitsStorage)

end Productions

end CFrontEnd
