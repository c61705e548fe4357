import CFrontEnd.Proofs.Grammar.Declarations
import CFrontEnd.Proofs.Grammar.Statements
import CFrontEnd.Proofs.Grammar.Words
import CFrontEnd.Proofs.Tree.Shapes

/-!
How single items of a block are read: the declaration of a typedef name or an object of type `int`,
and two names with a star between them, which declare a pointer or multiply.
-/

namespace CFrontEnd

namespace Word

def openBrace : Word := punctuator .openBrace "\x7b"

def closeBrace : Word := punctuator .closeBrace "\x7d"

def int : Word := keyword .intWord "int"

end Word

namespace Node

variable (place : SourceLocation) (name left right : String)

/-- `typedef int name;` -/
def intTypedef : Node :=
  ⟨.typedefDeclaration, place, .declaration { name := some name },
    [.named .builtinType place "int"]⟩

/-- `int name;` -/
def intObject : Node :=
  ⟨.variableDeclaration, place, .declaration { name := some name },
    [.named .builtinType place "int"]⟩

/-- `left * right;` where `left` names a type. -/
def pointerObject : Node :=
  ⟨.variableDeclaration, place, .declaration { name := some right },
    [.ofChildren .pointerType place [.named .typedefName place left]]⟩

/-- `left * right;` where neither names a type. -/
def productStatement : Node :=
  .ofChildren .expressionStatement place
    [.ofChildren (.binary .multiply) place
      [.named .identifier place left, .named .identifier place right]]

end Node

namespace Productions

open Parse

variable {deeper : Productions} {levels : Nat} {context : ParseContext} {state : ParseState}
  {dialect : Dialect} {name left right : String} (place : SourceLocation)

/-! ## Declarations with `int` -/

/-- The specifiers that are the one word `int`, maybe behind `typedef`. -/
def intSpecifiers (place : SourceLocation) (isTypedef : Bool) : DeclarationSpecifiers :=
  { location := place, isTypedef := isTypedef, words := #[.intWord], isPresent := true }

theorem baseType_int (isTypedef : Bool) :
    baseType (intSpecifiers place isTypedef) context state =
      .ok (.named .builtinType place "int") state :=
  rfl

theorem specifiersRule_int
    (isInt : (context.tokens.get state.position).kind = .keyword .intWord)
    (isName : (context.tokens.get (state.position + 1)).kind = .identifier) :
    specifiersRule deeper true context state =
      .ok (intSpecifiers (context.tokens.get state.position).location false)
        (state.movedTo (state.position + 1)) := by
  simp only [specifiersRule, bind_apply, location_apply, iterate_apply]
  rw [addSpecifier_typeWord isInt rfl, addSpecifier_name isName (.inr (by simp))]
  rfl

theorem specifiersRule_typedefInt
    (isTypedef : (context.tokens.get state.position).kind = .keyword .typedefWord)
    (isInt : (context.tokens.get (state.position + 1)).kind = .keyword .intWord)
    (isName : (context.tokens.get (state.position + 2)).kind = .identifier) :
    specifiersRule deeper true context state =
      .ok (intSpecifiers (context.tokens.get state.position).location true)
        (state.movedTo (state.position + 2)) := by
  simp only [specifiersRule, bind_apply, location_apply, iterate_apply]
  rw [addSpecifier_typedef isTypedef rfl, addSpecifier_typeWord isInt rfl,
    addSpecifier_name isName (.inr (by simp))]
  rfl

/-- A name is a whole declarator where nothing behind it makes an array or a function of it. -/
theorem declaratorRule_alone
    (isName : (context.tokens.get state.position).kind = .identifier)
    (ends : (context.tokens.get (state.position + 1)).kind.extendsDeclarator = false) :
    declaratorRule deeper .named context state =
      .ok { name := some (context.tokens.get state.position).lexeme
            location := (context.tokens.get state.position).location }
        (state.movedTo (state.position + 1)) := by
  have noStars : repeatFrom addPointer [] context state = .ok [] (state.movedTo state.position) :=
    addPointer_done (by simp [isName])
  have direct : directDeclarator deeper .named context state =
      .ok { name := some (context.tokens.get state.position).lexeme
            location := (context.tokens.get state.position).location }
        (state.movedTo (state.position + 1)) := by
    rw [directDeclarator_of_core (declaratorCore_name isName (by simp))]
    exact addDerivation_done ends
  exact declaratorRule_of_parts noStars direct

theorem declaratorRule_name
    (isName : (context.tokens.get state.position).kind = .identifier)
    (ends : (context.tokens.get (state.position + 1)).kind = .punctuator .semicolon) :
    declaratorRule deeper .named context state =
      .ok { name := some (context.tokens.get state.position).lexeme
            location := (context.tokens.get state.position).location }
        (state.movedTo (state.position + 1)) :=
  declaratorRule_alone isName (by rw [ends]; rfl)

theorem declaratorRule_pointer
    (star : (context.tokens.get state.position).kind = .operator .star)
    (isName : (context.tokens.get (state.position + 1)).kind = .identifier)
    (ends : (context.tokens.get (state.position + 2)).kind = .punctuator .semicolon) :
    declaratorRule deeper .named context state =
      .ok { name := some (context.tokens.get (state.position + 1)).lexeme
            location := (context.tokens.get (state.position + 1)).location
            derivations := [.pointer (context.tokens.get state.position).location {}] }
        (state.movedTo (state.position + 2)) := by
  have stars : repeatFrom addPointer [] context state =
      .ok [.pointer (context.tokens.get state.position).location {}]
        (state.movedTo (state.position + 1)) := by
    rw [addPointer_star star (addPointerQualifier_done (by simp [isName])) (by simp)]
    exact addPointer_done (by simp [isName])
  have direct : directDeclarator deeper .named context (state.movedTo (state.position + 1)) =
      .ok { name := some (context.tokens.get (state.position + 1)).lexeme
            location := (context.tokens.get (state.position + 1)).location }
        (state.movedTo (state.position + 2)) := by
    rw [directDeclarator_of_core (declaratorCore_name isName (by simp))]
    exact addDerivation_done (by simp [ends, TokenKind.extendsDeclarator])
  exact declaratorRule_of_parts stars direct

theorem blockItem_declaration (starts : startsDeclaration context state = .ok true state)
    (noExtension : (context.tokens.get state.position).kind ≠ .keyword .extensionWord)
    (noAssertion : (context.tokens.get state.position).kind ≠ .keyword .staticAssertWord)
    (noLabel : (context.tokens.get state.position).kind ≠ .keyword .labelWord) :
    blockItem deeper context state = declaration deeper none context state := by
  simp [blockItem, starts, blockDeclaration_ordinary noExtension noAssertion noLabel]

theorem blockItem_intTypedef
    (has : context.tokens.HasWordsAt state.position
      [.keyword .typedefWord "typedef", .int, .identifier name, .semicolon]) :
    ∃ node, blockItem (ofLevels (levels + 1)) context state =
        .ok { nodes := #[node] }
          ((state.rescoped (state.scopes.addTypedef name)).movedTo (state.position + 4)) ∧
      node.sameShape (.intTypedef place name) = true := by
  simp only [Word.keyword, Word.int, Word.identifier, Word.semicolon, Word.punctuator,
    TokenStream.hasWordsAt_cons, Token.word_eq_mk] at has
  obtain ⟨⟨isTypedef, _⟩, ⟨isInt, _⟩, ⟨isName, rfl, _⟩, ⟨ends, _⟩, _⟩ := has
  have starts := startsDeclaration_keyword isTypedef (by simp) (by simp)
  rw [blockItem_declaration starts (by simp [isTypedef]) (by simp [isTypedef]) (by simp [isTypedef]),
    declaration_typedef (specifiersRule_typedefInt isTypedef isInt isName) rfl (baseType_int _ _)
      (by simp [isName]) (declaratorRule_name isName ends) ends rfl]
  refine ⟨_, rfl, ?_⟩
  simp [typedefNode, Declarator.type, Node.intTypedef, Node.named, Node.leaf,
    Node.sameShape, Node.sameShapes]

theorem blockItem_intObject
    (has : context.tokens.HasWordsAt state.position [.int, .identifier name, .semicolon]) :
    ∃ node, blockItem (ofLevels (levels + 1)) context state =
        .ok { nodes := #[node] }
          ((state.rescoped (state.scopes.addOrdinary name)).movedTo (state.position + 3)) ∧
      node.sameShape (.intObject place name) = true := by
  simp only [Word.keyword, Word.int, Word.identifier, Word.semicolon, Word.punctuator,
    TokenStream.hasWordsAt_cons, Token.word_eq_mk] at has
  obtain ⟨⟨isInt, _⟩, ⟨isName, rfl, _⟩, ⟨ends, _⟩, _⟩ := has
  have starts := startsDeclaration_keyword isInt (by simp) (by simp)
  rw [blockItem_declaration starts (by simp [isInt]) (by simp [isInt]) (by simp [isInt]),
    declaration_variable (specifiersRule_int isInt isName) rfl (baseType_int _ _)
      (by simp [isName]) (declaratorRule_name isName ends) ends rfl rfl]
  refine ⟨_, rfl, ?_⟩
  simp [variableNode, intSpecifiers, Declarator.type, Node.intObject, Node.named,
    Node.leaf, Node.sameShape, Node.sameShapes]

/-! ## Two names with a star between them -/

theorem isTypeName_of_language (isC : context.language = cLanguage dialect)
    (noList : name ≠ "__builtin_va_list") :
    context.language.isTypeName state.scopes.isTypedefName name =
      state.scopes.isTypedefName name := by
  rw [isC]
  change isCTypeName _ _ = _
  simp [isCTypeName, noList]

theorem specifiersRule_typedefName
    (isName : (context.tokens.get state.position).kind = .identifier)
    (isType : context.language.isTypeName state.scopes.isTypedefName
      (context.tokens.get state.position).lexeme = true)
    (star : (context.tokens.get (state.position + 1)).kind = .operator .star) :
    specifiersRule deeper true context state =
      .ok { location := (context.tokens.get state.position).location
            named := some (.named .typedefName (context.tokens.get state.position).location
              (context.tokens.get state.position).lexeme)
            isPresent := true }
        (state.movedTo (state.position + 1)) := by
  simp only [specifiersRule, bind_apply, location_apply, iterate_apply]
  rw [addSpecifier_typedefName isName isType rfl rfl,
    addSpecifier_done (by simp [star, TokenKind.maySpecify])]

/-- Two names with a star between them and a semicolon behind stand at the current token. -/
structure AtProduct (context : ParseContext) (state : ParseState) (left right : String) :
    Prop where
  first : (context.tokens.get state.position).kind = .identifier
  firstName : (context.tokens.get state.position).lexeme = left
  star : (context.tokens.get (state.position + 1)).kind = .operator .star
  second : (context.tokens.get (state.position + 2)).kind = .identifier
  secondName : (context.tokens.get (state.position + 2)).lexeme = right
  ends : (context.tokens.get (state.position + 3)).kind = .punctuator .semicolon

theorem AtProduct.of_words
    (has : context.tokens.HasWordsAt state.position
      [.identifier left, .star, .identifier right, .semicolon]) :
    AtProduct context state left right := by
  simp only [Word.star, Word.operator, Word.identifier, Word.semicolon, Word.punctuator,
    TokenStream.hasWordsAt_cons, Token.word_eq_mk] at has
  obtain ⟨⟨first, firstName, _⟩, ⟨star, _⟩, ⟨second, secondName, _⟩, ⟨ends, _⟩, _⟩ := has
  exact ⟨first, firstName, star, second, secondName, ends⟩

/-- If the first name names a type, the second is declared as a pointer to it. -/
theorem blockItem_pointerObject (product : AtProduct context state left right)
    (isType : context.language.isTypeName state.scopes.isTypedefName left = true) :
    ∃ node, blockItem (ofLevels (levels + 1)) context state =
        .ok { nodes := #[node] }
          ((state.rescoped (state.scopes.addOrdinary right)).movedTo (state.position + 4)) ∧
      node.sameShape (.pointerObject place left right) = true := by
  obtain ⟨first, rfl, star, second, rfl, ends⟩ := product
  have starts := startsDeclaration_name first (by simp [star])
  rw [isType] at starts
  rw [blockItem_declaration starts (by simp [first]) (by simp [first]) (by simp [first]),
    declaration_variable (specifiersRule_typedefName first isType star) rfl rfl
      (by simp [star]) (declaratorRule_pointer star second ends) ends rfl rfl]
  refine ⟨_, rfl, ?_⟩
  simp [variableNode, Declarator.type, TypeDerivation.apply, Qualifiers.apply, Qualifiers.isEmpty,
    Qualifiers.words, Node.pointerObject, Node.named, Node.leaf, Node.ofChildren, Node.sameShape,
    Node.sameShapes]

theorem precedence?_star (dialect : Dialect) :
    (cLanguage dialect).precedence? .star = some 12 := by
  simp [Language.precedence?, Language.operatorEntry?, cOperators, OperatorEntry.atLevel,
    Precedence.level]

namespace AtProduct

theorem two_lt_remaining (product : AtProduct context state left right) :
    2 < state.remaining context := by
  have inside : state.position + 1 < context.tokens.body.size :=
    TokenStream.lt_size_of_kind (by simp [product.star])
  simp only [ParseState.remaining, TokenStream.remaining, TokenStream.length]
  omega

theorem atBinary? (product : AtProduct context state left right)
    (isC : context.language = cLanguage dialect) :
    Productions.atBinary? 3 context (state.movedTo (state.position + 1)) =
      .ok (some (.multiply, 13)) (state.movedTo (state.position + 1)) :=
  atBinary?_some isC product.star rfl (precedence?_star dialect) (by decide)

/-- The left operand of a product is read before anything is known of the right one. -/
theorem binary_eq (product : AtProduct context state left right)
    (noType : context.language.isTypeName state.scopes.isTypedefName left = false) :
    binary (rules (rules deeper)) context state =
      repeatFrom (binaryStep (rules (rules deeper)) (state.remaining context - 1) 3)
        (.named .identifier (context.tokens.get state.position).location left) context
        (state.movedTo (state.position + 1)) := by
  have enough := product.two_lt_remaining
  obtain ⟨first, rfl, star, _⟩ := product
  have read : castRule (rules deeper) context state = _ :=
    castRule_name first noType (by simp [star, TokenKind.extendsOperand])
  have whole : Agrees False state.diagnostics (binary (rules (rules deeper)) context state) _ :=
    binaryWithin_of_cast (by omega) (.inl read)
  exact whole.eq

theorem binary_read (product : AtProduct context state left right)
    (isC : context.language = cLanguage dialect)
    (noType : context.language.isTypeName state.scopes.isTypedefName left = false)
    (noOther : context.language.isTypeName state.scopes.isTypedefName right = false) :
    binary (rules (rules deeper)) context state =
      .ok (.ofChildren (.binary .multiply) (context.tokens.get (state.position + 1)).location
          [.named .identifier (context.tokens.get state.position).location left,
            .named .identifier (context.tokens.get (state.position + 2)).location right])
        (state.movedTo (state.position + 3)) := by
  have enough := product.two_lt_remaining
  have found := product.atBinary? isC
  -- Behind the second name there is no operator of any level, so both loops over operators end
  -- there.
  have noMore : ∀ least, Productions.atBinary? least context (state.movedTo (state.position + 3)) =
      .ok none (state.movedTo (state.position + 3)) := by
    intro least
    exact atBinary?_none isC (Language.binaryBelow_of_notBinary (by simp [product.ends]))
  rw [product.binary_eq noType]
  obtain ⟨_, _, star, second, rfl, ends⟩ := product
  have read : castRule (rules deeper) context (state.movedTo (state.position + 2)) =
      .ok (.named .identifier (context.tokens.get (state.position + 2)).location
        (context.tokens.get (state.position + 2)).lexeme) (state.movedTo (state.position + 3)) :=
    castRule_name second noOther (by simp [ends, TokenKind.extendsOperand])
  have operand : Agrees False state.diagnostics
      (binaryWithin (rules (rules deeper)) (state.remaining context - 1) 13 context
        (state.movedTo (state.position + 2)))
      (.ok (.named .identifier (context.tokens.get (state.position + 2)).location
        (context.tokens.get (state.position + 2)).lexeme) (state.movedTo (state.position + 3))) := by
    rw [← binaryStep_none (noMore 13)]
    exact binaryWithin_of_cast (by omega) (.inl read)
  rw [(binaryStep_some (by simp [star]) found operand (by simp)).eq]
  exact binaryStep_none (noMore 3)

theorem binary_gaveUp (product : AtProduct context state left right)
    (isC : context.language = cLanguage dialect) (calm : state.panicking = false)
    (noType : context.language.isTypeName state.scopes.isTypedefName left = false)
    (isType : context.language.isTypeName state.scopes.isTypedefName right = true) :
    binary (rules (rules deeper)) context state =
      .error .givenUp
        { (state.reported (context.tokens.get (state.position + 2)).location
            (.unexpectedTypeName right)).movedTo (state.position + 2) with
          panicking := true } := by
  have enough := product.two_lt_remaining
  have found := product.atBinary? isC
  rw [product.binary_eq noType]
  obtain ⟨_, _, star, second, rfl, ends⟩ := product
  have operand : castRule (rules deeper) context (state.movedTo (state.position + 2)) = _ :=
    castRule_typeName calm second isType
  obtain ⟨steps, same⟩ : ∃ steps, state.remaining context - 1 = steps + 1 :=
    ⟨state.remaining context - 2, by omega⟩
  have cast : (rules (rules deeper)).cast = castRule (rules deeper) := rfl
  apply repeatFrom_error
  simp [binaryStep, found, star, same, binaryWithin_succ, cast, operand]

theorem blockItem_eq (product : AtProduct context state left right)
    (noType : context.language.isTypeName state.scopes.isTypedefName left = false) :
    blockItem (ofLevels (levels + 1)) context state =
      single (expressionStatement (ofLevels levels)) context state := by
  obtain ⟨first, rfl, star, _⟩ := product
  have starts := startsDeclaration_name first (by simp [star])
  have statement : (ofLevels (levels + 1)).statement = statementRule (ofLevels levels) := rfl
  simp [blockItem, starts, noType, single, statement,
    statementRule_name first (by simp [star])]

/-- If neither name names a type, they are multiplied. -/
theorem blockItem_product (product : AtProduct context state left right)
    (isC : context.language = cLanguage dialect)
    (noType : context.language.isTypeName state.scopes.isTypedefName left = false)
    (noOther : context.language.isTypeName state.scopes.isTypedefName right = false) :
    ∃ node, blockItem (ofLevels (levels + 5)) context state =
        .ok { nodes := #[node] } (state.movedTo (state.position + 4)) ∧
      node.sameShape (.productStatement place left right) = true := by
  have operands : binary (ofLevels (levels + 2)) context state = _ :=
    product.binary_read isC noType noOther
  have expression : (ofLevels (levels + 4)).expression context state = _ :=
    expression_of_binary operands product.ends
  have read := expressionStatement_of_expression expression product.ends
  rw [product.blockItem_eq noType]
  simp only [single, bind_apply, read, pure_apply]
  refine ⟨_, rfl, ?_⟩
  simp [Node.productStatement, Node.named, Node.leaf, Node.ofChildren, Node.sameShape,
    Node.sameShapes]

/-- If the second name alone names a type, the product is given up there. -/
theorem blockItem_gaveUp (product : AtProduct context state left right)
    (isC : context.language = cLanguage dialect) (calm : state.panicking = false)
    (noType : context.language.isTypeName state.scopes.isTypedefName left = false)
    (isType : context.language.isTypeName state.scopes.isTypedefName right = true) :
    blockItem (ofLevels (levels + 5)) context state =
      .error .givenUp
        { (state.reported (context.tokens.get (state.position + 2)).location
            (.unexpectedTypeName right)).movedTo (state.position + 2) with
          panicking := true } := by
  rw [product.blockItem_eq noType]
  have operands : binary (ofLevels (levels + 2)) context state = _ :=
    product.binary_gaveUp isC calm noType isType
  have expression : (ofLevels (levels + 4)).expression context state = _ :=
    expression_gaveUp operands
  simp only [single, bind_apply, expressionStatement_gaveUp expression]

/-- Parsing resumes behind a product that is given up. -/
theorem resumption_eq (product : AtProduct context state left right) :
    context.tokens.resumption (state.position + 2) 0 (state.position + 2) =
      state.position + 4 := by
  rw [TokenStream.resumption_passed (by rw [product.second]; rfl),
    TokenStream.resumption_semicolon product.ends]

end AtProduct

end Productions

end CFrontEnd
