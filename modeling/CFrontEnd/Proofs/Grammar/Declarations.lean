import CFrontEnd.Grammar.Rules.Declarations
import CFrontEnd.Grammar.Rules.Declarators
import CFrontEnd.Proofs.Grammar.Questions
import CFrontEnd.Proofs.Grammar.Specifiers

/-!
Declarators: the stars in front, the name or what stands for it, and the steps behind. Each lemma
says how a production runs if the productions inside it run as expected. With a declarator come
declarations of one name: of an object without an initial value, of a typedef name, and of a function
with its body.
-/

namespace CFrontEnd

/-- The kinds of tokens that make a longer declarator of the one before them. -/
def TokenKind.extendsDeclarator : TokenKind → Bool
  | .punctuator .openBracket | .punctuator .openParen => true
  | _ => false

namespace Productions

open Parse

variable {deeper : Productions} {context : ParseContext} {state next : ParseState}
  {form : DeclaratorForm} {stop : Nat}

/-! ## Stars -/

theorem addPointerQualifier_done {qualifiers : Qualifiers}
    (noWord : ∀ word, (context.tokens.get state.position).kind ≠ .keyword word) :
    repeatFrom addPointerQualifier qualifiers context state = .ok qualifiers state := by
  apply repeatFrom_done
  cases kind : (context.tokens.get state.position).kind with
  | keyword word => exact absurd kind (noWord word)
  | _ => simp [addPointerQualifier, kind]

theorem addPointerQualifier_word {qualifiers more : Qualifiers} {word : Keyword}
    (isWord : (context.tokens.get state.position).kind = .keyword word)
    (qualifies : qualifiers.add? word = some more) :
    repeatFrom addPointerQualifier qualifiers context state =
      repeatFrom addPointerQualifier more context (state.movedTo (state.position + 1)) := by
  refine repeatFrom_yield ?_ (ParseState.remaining_movedTo_lt (by simp [isWord]) (by omega))
  cases word <;> simp [Qualifiers.add?] at qualifies <;>
    simp [addPointerQualifier, isWord, Qualifiers.add?, qualifies]

theorem addPointer_done {nearest : List TypeDerivation}
    (noStar : (context.tokens.get state.position).kind ≠ .operator .star) :
    repeatFrom addPointer nearest context state = .ok nearest state :=
  repeatFrom_done (by simp [addPointer, noStar])

theorem addPointer_star {nearest : List TypeDerivation} {qualifiers : Qualifiers}
    (star : (context.tokens.get state.position).kind = .operator .star)
    (qualified : repeatFrom addPointerQualifier {} context (state.movedTo (state.position + 1)) =
      .ok qualifiers (state.movedTo stop))
    (forward : state.position < stop) :
    repeatFrom addPointer nearest context state =
      repeatFrom addPointer
        (.pointer (context.tokens.get state.position).location qualifiers :: nearest) context
        (state.movedTo stop) := by
  refine repeatFrom_yield ?_ (ParseState.remaining_movedTo_lt (by simp [star]) forward)
  simp [addPointer, star, pointerQualifiers, qualified]

/-! ## What the stars stand in front of -/

theorem declaratorCore_name
    (isName : (context.tokens.get state.position).kind = .identifier)
    (named : form ≠ .abstract) :
    declaratorCore deeper form context state =
      .ok { name := some (context.tokens.get state.position).lexeme
            location := (context.tokens.get state.position).location }
        (state.movedTo (state.position + 1)) := by
  simp [declaratorCore, atEnclosedDeclarator, isName, named]

theorem addDerivation_done {declarator : Declarator}
    (ends : (context.tokens.get state.position).kind.extendsDeclarator = false) :
    repeatFrom (addDerivation deeper) declarator context state = .ok declarator state := by
  apply repeatFrom_done
  cases kind : (context.tokens.get state.position).kind with
  | punctuator punctuator =>
    cases punctuator <;> simp_all [addDerivation, TokenKind.extendsDeclarator]
  | _ => simp [addDerivation, kind]

theorem directDeclarator_of_core {declarator : Declarator}
    (core : declaratorCore deeper form context state = .ok declarator next) :
    directDeclarator deeper form context state =
      repeatFrom (addDerivation deeper) declarator context next := by
  simp [directDeclarator, core]

theorem declaratorRule_of_parts {stars : List TypeDerivation} {declarator : Declarator}
    (front : repeatFrom addPointer [] context state = .ok stars (state.movedTo stop))
    (direct : directDeclarator deeper form context (state.movedTo stop) = .ok declarator next) :
    declaratorRule deeper form context state = .ok (declarator.append stars) next := by
  simp [declaratorRule, pointers, front, direct]

end Productions

/-! ## Declarations of one name -/

namespace Productions

open Parse

variable {deeper : Productions} {body : Option (Parse Node)} {context : ParseContext}
  {state : ParseState} {specifiers : DeclarationSpecifiers} {base : Node} {declarator : Declarator}
  {start stop : Nat}

/-- The object that a declarator declares. -/
def variableNode (specifiers : DeclarationSpecifiers) (base : Node) (declarator : Declarator) :
    Node :=
  ⟨.variableDeclaration, declarator.location,
    .declaration
      { name := declarator.name
        storage := specifiers.storage
        isThreadLocal := specifiers.isThreadLocal
        symbol := none },
    declarator.type base :: specifiers.alignments.toList⟩

/-- The typedef name that a declarator declares. -/
def typedefNode (base : Node) (declarator : Declarator) : Node :=
  ⟨.typedefDeclaration, declarator.location, .declaration { name := declarator.name },
    [declarator.type base]⟩

theorem initDeclarator_typedef
    (read : deeper.declarator .named context state = .ok declarator (state.movedTo stop))
    (ends : (context.tokens.get stop).kind = .punctuator .semicolon)
    (isTypedef : specifiers.isTypedef = true) :
    initDeclarator deeper body specifiers base context state =
      .ok (typedefNode base declarator) (state.movedTo stop) := by
  have noAttributes : skipAttributes context (state.movedTo stop) = .ok () (state.movedTo stop) :=
    skipAttributes_none (by simp [ends, TokenKind.mayBeginAttribute])
  simp [initDeclarator, read, assemblerName?, ends, noAttributes, isTypedef, typedefNode]

theorem initDeclarator_variable
    (read : deeper.declarator .named context state = .ok declarator (state.movedTo stop))
    (ends : (context.tokens.get stop).kind = .punctuator .semicolon)
    (noTypedef : specifiers.isTypedef = false) (noFunction : declarator.isFunction = false) :
    initDeclarator deeper body specifiers base context state =
      .ok (variableNode specifiers base declarator)
        ((state.rescoped (state.scopes.addOrdinary (declarator.name.getD ""))).movedTo stop) := by
  have noAttributes : skipAttributes context (state.movedTo stop) = .ok () (state.movedTo stop) :=
    skipAttributes_none (by simp [ends, TokenKind.mayBeginAttribute])
  simp [initDeclarator, read, assemblerName?, ends, noAttributes, noTypedef, noFunction,
    variableDeclaration, variableNode]

/-- The object that a declarator declares with an initial value. -/
def initializedNode (specifiers : DeclarationSpecifiers) (base : Node) (declarator : Declarator)
    (value : Node) : Node :=
  { variableNode specifiers base declarator with
    children := declarator.type base :: specifiers.alignments.toList ++ [value] }

theorem initDeclarator_initialized
    (read : deeper.declarator .named context state = .ok declarator (state.movedTo stop))
    (assigns : (context.tokens.get stop).kind = .operator .assign)
    (noTypedef : specifiers.isTypedef = false) (noFunction : declarator.isFunction = false) :
    initDeclarator deeper body specifiers base context state =
      match deeper.initializer context
        ((state.rescoped (state.scopes.addOrdinary (declarator.name.getD ""))).movedTo
          (stop + 1)) with
      | .ok value next => .ok (initializedNode specifiers base declarator value) next
      | .error reason next => .error reason next := by
  have noAttributes : skipAttributes context (state.movedTo stop) = .ok () (state.movedTo stop) :=
    skipAttributes_none (by simp [assigns, TokenKind.mayBeginAttribute])
  cases result : deeper.initializer context
      ((state.rescoped (state.scopes.addOrdinary (declarator.name.getD ""))).movedTo (stop + 1)) <;>
    simp_all [initDeclarator, assemblerName?, variableDeclaration, variableNode, initializedNode]

theorem declaration_single {node : Node} {specifiedState basedState next : ParseState}
    (specified : deeper.specifiers true context state = .ok specifiers specifiedState)
    (present : specifiers.isPresent = true)
    (based : baseType specifiers context specifiedState = .ok base basedState)
    (declares : (context.tokens.get basedState.position).kind ≠ .punctuator .semicolon)
    (declared : initDeclarator deeper body specifiers base context basedState = .ok node next)
    (noBody : node.body? = none)
    (ends : (context.tokens.get next.position).kind = .punctuator .semicolon) :
    declaration deeper body context state =
      .ok { nodes := #[node] }
        ((next.rescoped
          (if node.kind = .typedefDeclaration then next.scopes.addTypedef (node.name?.getD "")
            else next.scopes)).movedTo (next.position + 1)) := by
  have items : initDeclarators deeper body specifiers base context basedState =
      .ok { nodes := #[node] } next :=
    repeatFrom_done (by simp [attempt, declared, noBody, ends])
  simp [declaration, specified, present, based, declares, items, addTypedefs, noBody,
    thenFinish, attempt, expectSemicolon, ends]

theorem declaration_incomplete {reason : GivenUp} {specifiedState basedState next : ParseState}
    (specified : deeper.specifiers true context state = .ok specifiers specifiedState)
    (present : specifiers.isPresent = true)
    (based : baseType specifiers context specifiedState = .ok base basedState)
    (declares : (context.tokens.get basedState.position).kind ≠ .punctuator .semicolon)
    (gaveUp : initDeclarator deeper body specifiers base context basedState = .error reason next) :
    declaration deeper body context state = .ok { completed := false } next := by
  have items : initDeclarators deeper body specifiers base context basedState =
      .ok { completed := false } next :=
    repeatFrom_done (by simp [attempt, gaveUp])
  simp [declaration, specified, present, based, declares, items, addTypedefs, thenFinish]

theorem declaration_withBody {node : Node} {next : ParseState}
    (specified : deeper.specifiers true context state = .ok specifiers (state.movedTo start))
    (present : specifiers.isPresent = true)
    (based : baseType specifiers context (state.movedTo start) = .ok base (state.movedTo start))
    (declares : (context.tokens.get start).kind ≠ .punctuator .semicolon)
    (declared : initDeclarator deeper body specifiers base context (state.movedTo start) =
      .ok node next)
    (isFunction : node.kind = .functionDeclaration) (hasBody : node.body?.isSome = true) :
    declaration deeper body context state = .ok { nodes := #[node] } next := by
  have items : initDeclarators deeper body specifiers base context (state.movedTo start) =
      .ok { nodes := #[node] } next :=
    repeatFrom_done (by simp [attempt, declared, hasBody])
  simp [declaration, specified, present, based, declares, items, addTypedefs, hasBody, isFunction]

theorem body?_variableNode : (variableNode specifiers base declarator).body? = none := by
  simp [variableNode, Node.body?]

theorem body?_initializedNode {value : Node} :
    (initializedNode specifiers base declarator value).body? = none := by
  simp [initializedNode, variableNode, Node.body?]

theorem body?_typedefNode : (typedefNode base declarator).body? = none := by
  simp [typedefNode, Node.body?]

theorem declaration_variable
    (specified : deeper.specifiers true context state = .ok specifiers (state.movedTo start))
    (present : specifiers.isPresent = true)
    (based : baseType specifiers context (state.movedTo start) = .ok base (state.movedTo start))
    (declares : (context.tokens.get start).kind ≠ .punctuator .semicolon)
    (read : deeper.declarator .named context (state.movedTo start) =
      .ok declarator (state.movedTo stop))
    (ends : (context.tokens.get stop).kind = .punctuator .semicolon)
    (noTypedef : specifiers.isTypedef = false) (noFunction : declarator.isFunction = false) :
    declaration deeper body context state =
      .ok { nodes := #[variableNode specifiers base declarator] }
        ((state.rescoped (state.scopes.addOrdinary (declarator.name.getD ""))).movedTo
          (stop + 1)) := by
  rw [declaration_single specified present based declares
    (initDeclarator_variable read ends noTypedef noFunction) body?_variableNode ends]
  simp [variableNode]

theorem declaration_typedef
    (specified : deeper.specifiers true context state = .ok specifiers (state.movedTo start))
    (present : specifiers.isPresent = true)
    (based : baseType specifiers context (state.movedTo start) = .ok base (state.movedTo start))
    (declares : (context.tokens.get start).kind ≠ .punctuator .semicolon)
    (read : deeper.declarator .named context (state.movedTo start) =
      .ok declarator (state.movedTo stop))
    (ends : (context.tokens.get stop).kind = .punctuator .semicolon)
    (isTypedef : specifiers.isTypedef = true) :
    declaration deeper body context state =
      .ok { nodes := #[typedefNode base declarator] }
        ((state.rescoped (state.scopes.addTypedef (declarator.name.getD ""))).movedTo
          (stop + 1)) := by
  rw [declaration_single specified present based declares
    (initDeclarator_typedef read ends isTypedef) body?_typedefNode ends]
  simp [typedefNode, Node.name?, Payload.name?]

/-- What begins no static assertion and no declaration of labels is an ordinary declaration. -/
theorem blockDeclaration_ordinary
    (noExtension : (context.tokens.get state.position).kind ≠ .keyword .extensionWord)
    (noAssertion : (context.tokens.get state.position).kind ≠ .keyword .staticAssertWord)
    (noLabel : (context.tokens.get state.position).kind ≠ .keyword .labelWord) :
    blockDeclaration deeper context state = declaration deeper none context state := by
  cases kind : (context.tokens.get state.position).kind with
  | keyword word =>
    cases word <;> simp_all [blockDeclaration, skipExtensions_none]
  | _ => simp [blockDeclaration, skipExtensions_none noExtension, kind]

/-- What begins with any other word is an ordinary declaration at the top of a text. -/
theorem externalDeclaration_ordinary {word : Keyword}
    (isWord : (context.tokens.get state.position).kind = .keyword word)
    (ordinary : word ∉ [.extensionWord, .staticAssertWord, .asmWord]) :
    externalDeclaration deeper context state =
      declaration deeper (some (functionBody deeper)) context state := by
  simp only [List.mem_cons, List.not_mem_nil, or_false, not_or] at ordinary
  obtain ⟨noExtension, noAssertion, noAssembly⟩ := ordinary
  have noExtensions : skipExtensions context state = .ok () state :=
    skipExtensions_none (by simpa [isWord] using noExtension)
  cases word <;> simp_all [externalDeclaration]

theorem groupedDeclaration_single {node : Node} {next : ParseState}
    (declared : blockDeclaration deeper context state = .ok { nodes := #[node] } next) :
    groupedDeclaration deeper context state = .ok node next := by
  simp [groupedDeclaration, completed, declared, groupDeclarations]

end Productions

end CFrontEnd
