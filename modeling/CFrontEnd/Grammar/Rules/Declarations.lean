import CFrontEnd.Grammar.Assembly
import CFrontEnd.Grammar.Recovery
import CFrontEnd.Grammar.Rules.Specifiers

/-!
Declarations, in blocks and at the top of a text, and the blocks that function bodies are.
-/

namespace CFrontEnd

/-- A specifier on its own declares its tag. -/
def tagDeclaration? (base : Node) : Option Node :=
  let type := if base.kind = .qualifiedType then base.child? 0 else some base
  match type with
  | none => none
  | some type =>
    match type.kind with
    | .structType => some { type with kind := .structDeclaration }
    | .unionType => some { type with kind := .unionDeclaration }
    | .enumType => some { type with kind := .enumDeclaration }
    | _ => none

/-- The declaration of the function whose parameters are the outermost step of the declarator. -/
def functionDeclaration (specifiers : DeclarationSpecifiers) (base : Node)
    (declarator : Declarator) (symbol : Option String) : Node :=
  let info : FunctionInfo :=
    { name := declarator.name.getD ""
      storage := specifiers.storage
      isInline := specifiers.isInline
      isNoreturn := specifiers.isNoreturn
      symbol := symbol }
  match declarator.derivations with
  | .function _ parameters isVariadic isPrototyped :: rest =>
    let returned := { declarator with derivations := rest }.type base
    ⟨.functionDeclaration, declarator.location,
      .function { info with isVariadic := isVariadic, isPrototyped := isPrototyped },
      returned :: parameters⟩
  | _ =>
    ⟨.functionDeclaration, declarator.location, .function info, [declarator.type base]⟩

namespace Productions

open Parse

/-! ## Declarators with what they declare -/

/-- A name is in scope in its own initializer. -/
def variableDeclaration (deeper : Productions) (specifiers : DeclarationSpecifiers) (base : Node)
    (declarator : Declarator) (symbol : Option String) : Parse Node := do
  let info : DeclarationInfo :=
    { name := declarator.name
      storage := specifiers.storage
      isThreadLocal := specifiers.isThreadLocal
      symbol := symbol }
  addOrdinary (declarator.name.getD "")
  let initialValue ←
    if ← consume (.operator .assign) then some <$> deeper.initializer else pure none
  return ⟨.variableDeclaration, declarator.location, .declaration info,
    declarator.type base :: specifiers.alignments.toList ++ initialValue.toList⟩

/-- A function is in scope in its body, and so are its parameters. -/
def functionDefinition (declaration : Node) (body : Parse Node) : Parse Node := do
  addOrdinary (declaration.name?.getD "")
  let block ← inNewScope do
    for parameter in declaration.parameters do
      if let some name := parameter.name? then addOrdinary name
    body
  return { declaration with children := declaration.children ++ [block] }

/-- One declarator and what belongs to it. Only the first of a declaration at the top of the text can
have a body, for which `body` is given. -/
def initDeclarator (deeper : Productions) (body : Option (Parse Node))
    (specifiers : DeclarationSpecifiers) (base : Node) : Parse Node := do
  let declarator ← deeper.declarator .named
  let symbol ← assemblerName?
  skipAttributes
  if specifiers.isTypedef then
    return ⟨.typedefDeclaration, declarator.location, .declaration { name := declarator.name },
      [declarator.type base]⟩
  else if declarator.isFunction then
    let declaration := functionDeclaration specifiers base declarator symbol
    if ← atPunctuator .openBrace then
      match body with
      | some body => functionDefinition declaration body
      | none => giveUp (← location) .functionDefinitionHere
    else
      addOrdinary (declarator.name.getD "")
      return declaration
  else variableDeclaration deeper specifiers base declarator symbol

/-- Declarators with commas between them. A function body ends the list. -/
def initDeclarators (deeper : Productions) (body : Option (Parse Node))
    (specifiers : DeclarationSpecifiers) (base : Node) : Parse Items :=
  iterate {} fun items => do
    let body := if items.nodes.isEmpty then body else none
    match ← attempt (initDeclarator deeper body specifiers base) with
    | none => return .done { items with completed := false }
    | some node =>
      let items : Items := ⟨items.nodes.push node, true⟩
      if node.body?.isSome then return .done items
      else if ← consumePunctuator .comma then return .yield items
      else return .done items

/-! ## Declarations -/

/-- At the top of a text a name with a parenthesis behind it may stand without any specifier. -/
def withoutSpecifiers (atTop : Bool) (specifiers : DeclarationSpecifiers) :
    Parse DeclarationSpecifiers := do
  let token ← peek
  let next ← peekAhead 1
  if token.isIdentifier && atTop && next.isPunctuator .openParen then
    return { specifiers with location := token.location }
  else if token.isIdentifier && (next.isIdentifier || next.isOperator .star) then
    giveUp token.location (.unknownTypeName token.lexeme)
  else unexpected (if atTop then "declaration" else "declaration or statement")

/-- Typedef names are in scope after the last declarator, also where it was not completed. -/
def addTypedefs (nodes : Array Node) : Parse Unit :=
  modifyScopes fun scopes =>
    nodes.foldl
      (fun scopes node =>
        if node.kind = .typedefDeclaration then scopes.addTypedef (node.name?.getD "") else scopes)
      scopes

/-- A declaration, at the top of the text if there is a production for function bodies. -/
def declaration (deeper : Productions) (body : Option (Parse Node)) : Parse Items := do
  let specifiers ← deeper.specifiers true
  let specifiers ←
    if specifiers.isPresent then pure specifiers else withoutSpecifiers body.isSome specifiers
  let base ← baseType specifiers
  if ← consumePunctuator .semicolon then return { nodes := (tagDeclaration? base).toArray }
  else
    let items ← initDeclarators deeper body specifiers base
    addTypedefs items.nodes
    if (items.nodes.back?.bind Node.body?).isSome then return items
    else thenFinish items (expectSemicolon "declaration")

def labelDeclarations : Parse Items := do
  discard advance
  let labels ← separatedItems do
    let label ← expectIdentifier
    return .named .labelDeclaration label.location label.lexeme
  thenFinish labels (expectSemicolon "label declaration")

def blockDeclaration (deeper : Productions) : Parse Items := do
  skipExtensions
  match (← peek).kind with
  | .keyword .staticAssertWord => single deeper.staticAssertion
  | .keyword .labelWord => labelDeclarations
  | _ => declaration deeper none

/-- A block declaration where one node is wanted. -/
def groupedDeclaration (deeper : Productions) : Parse Node := do
  let start ← location
  return groupDeclarations start (← completed (blockDeclaration deeper))

/-! ## Blocks -/

def blockItem (deeper : Productions) : Parse Items := do
  if ← startsDeclaration then blockDeclaration deeper else single deeper.statement

/-- Items in braces, which `inScope` puts into a scope. -/
def blockIn (inScope : Parse (Array Node) → Parse (Array Node)) (deeper : Productions) :
    Parse Node := do
  let opening ← expectPunctuator .openBrace "'\x7b'"
  let items ← inScope
    (recoveringItems (fun token => token.isPunctuator .closeBrace) (blockItem deeper))
  expectClosingBrace
  return .ofChildren .compound opening.location items.toList

/-- The scope of a function body is that of the parameters. -/
def functionBody (deeper : Productions) : Parse Node := blockIn id deeper

/-- A block with a scope of its own. -/
def block (deeper : Productions) : Parse Node := blockIn inNewScope deeper

/-- A declaration at the top of a text. -/
def externalDeclaration (deeper : Productions) : Parse Items := do
  skipExtensions
  match (← peek).kind with
  | .punctuator .semicolon =>
    discard advance
    return {}
  | .keyword .staticAssertWord => single deeper.staticAssertion
  | .keyword .asmWord => single (assembly deeper)
  | _ => declaration deeper (some (functionBody deeper))

end Productions

end CFrontEnd
