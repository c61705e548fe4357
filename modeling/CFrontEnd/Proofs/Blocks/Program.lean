import CFrontEnd.Proofs.Blocks.Scoping

/-!
A text with one function definition. Its body is read as it is elaborated, for every dialect and
whatever stands in the body.
-/

namespace CFrontEnd

namespace Productions

open Parse

variable {levels : Nat} {context : ParseContext} {state next : ParseState} {block : Node}

/-- `void name(void)` -/
def voidFunctionWords (name : String) : List Word :=
  [.keyword .voidWord "void", .identifier name, .openParen, .keyword .voidWord "void", .closeParen]

theorem specifiersRule_void {deeper : Productions}
    (isVoid : (context.tokens.get state.position).kind = .keyword .voidWord)
    (isName : (context.tokens.get (state.position + 1)).kind = .identifier) :
    specifiersRule deeper true context state =
      .ok { location := (context.tokens.get state.position).location
            words := #[.voidWord]
            isPresent := true }
        (state.movedTo (state.position + 1)) := by
  simp only [specifiersRule, bind_apply, location_apply, iterate_apply]
  rw [addSpecifier_typeWord isVoid rfl, addSpecifier_name isName (.inr (by simp))]
  rfl

theorem addDerivation_void {deeper : Productions} {declarator : Declarator}
    (opens : (context.tokens.get state.position).kind = .punctuator .openParen)
    (isVoid : (context.tokens.get (state.position + 1)).kind = .keyword .voidWord)
    (closes : (context.tokens.get (state.position + 2)).kind = .punctuator .closeParen) :
    repeatFrom (addDerivation deeper) declarator context state =
      repeatFrom (addDerivation deeper)
        (declarator.append
          [.function (context.tokens.get state.position).location [] false true])
        context (state.movedTo (state.position + 3)) := by
  refine repeatFrom_yield ?_ (ParseState.remaining_movedTo_lt (by simp [opens]) (by omega))
  simp [addDerivation, opens, functionDerivation, inNewScope_apply, parameterList, isVoid, closes]

theorem declaratorRule_voidFunction {deeper : Productions}
    (isName : (context.tokens.get state.position).kind = .identifier)
    (opens : (context.tokens.get (state.position + 1)).kind = .punctuator .openParen)
    (isVoid : (context.tokens.get (state.position + 2)).kind = .keyword .voidWord)
    (closes : (context.tokens.get (state.position + 3)).kind = .punctuator .closeParen)
    (ends : (context.tokens.get (state.position + 4)).kind = .punctuator .openBrace) :
    declaratorRule deeper .named context state =
      .ok { name := some (context.tokens.get state.position).lexeme
            location := (context.tokens.get state.position).location
            derivations :=
              [.function (context.tokens.get (state.position + 1)).location [] false true] }
        (state.movedTo (state.position + 4)) := by
  have noStars : repeatFrom addPointer [] context state = .ok [] (state.movedTo state.position) :=
    addPointer_done (by simp [isName])
  have direct : directDeclarator deeper .named context state =
      .ok { name := some (context.tokens.get state.position).lexeme
            location := (context.tokens.get state.position).location
            derivations :=
              [.function (context.tokens.get (state.position + 1)).location [] false true] }
        (state.movedTo (state.position + 4)) := by
    rw [directDeclarator_of_core (declaratorCore_name isName (by simp)),
      addDerivation_void opens isVoid closes]
    exact addDerivation_done (by simp [ends, TokenKind.extendsDeclarator])
  exact declaratorRule_of_parts noStars direct

/-- A function without parameters is in scope in its body. -/
theorem initDeclarator_voidFunction {deeper : Productions} {body : Parse Node} {name : String}
    {place spot opening : SourceLocation} {specifiers : DeclarationSpecifiers} {stop : Nat}
    (plain : specifiers = { location := place, words := #[.voidWord], isPresent := true })
    (read : deeper.declarator .named context state =
      .ok { name := some name
            location := spot
            derivations := [.function opening [] false true] } (state.movedTo stop))
    (opens : (context.tokens.get stop).kind = .punctuator .openBrace)
    (bodyRead : body context ((state.rescoped (state.scopes.addOrdinary name).enter).movedTo stop) =
      .ok block next) :
    initDeclarator deeper (some body) specifiers (.named .builtinType place "void") context state =
      .ok ⟨.functionDeclaration, spot, .function { name := name, isPrototyped := true },
          [.named .builtinType place "void", block]⟩
        (next.rescoped next.scopes.exit) := by
  have noAttributes : skipAttributes context (state.movedTo stop) = .ok () (state.movedTo stop) :=
    skipAttributes_none (by simp [opens, TokenKind.mayBeginAttribute])
  subst plain
  simp [initDeclarator, read, assemblerName?, opens, noAttributes, Declarator.isFunction,
    functionDeclaration, functionDefinition, Declarator.type, Node.name?, Payload.name?,
    Node.parameters, Node.named, Node.leaf, inNewScope_apply, bodyRead]

/-- The definition of a function without parameters, at the top of a text. -/
theorem externalDeclaration_voidFunction {name : String} {nodes : List Node}
    (has : context.tokens.HasWordsAt state.position (voidFunctionWords name))
    (opens : (context.tokens.get (state.position + 5)).kind = .punctuator .openBrace)
    (bodyRead : functionBody (ofLevels (levels + 1)) context
        ((state.rescoped (state.scopes.addOrdinary name).enter).movedTo (state.position + 5)) =
      .ok (.ofChildren .compound (context.tokens.get (state.position + 5)).location nodes) next) :
    externalDeclaration (ofLevels (levels + 1)) context state =
      .ok { nodes := #[⟨.functionDeclaration, (context.tokens.get (state.position + 1)).location,
          .function { name := name, isPrototyped := true },
          [.named .builtinType (context.tokens.get state.position).location "void",
            .ofChildren .compound (context.tokens.get (state.position + 5)).location nodes]⟩] }
        (next.rescoped next.scopes.exit) := by
  simp only [voidFunctionWords, Word.keyword, Word.identifier, Word.openParen, Word.closeParen,
    Word.punctuator, TokenStream.hasWordsAt_cons, Token.word_eq_mk] at has
  obtain ⟨⟨isVoid, _⟩, ⟨isName, rfl, _⟩, ⟨paren, _⟩, ⟨isNone, _⟩, ⟨closes, _⟩, _⟩ := has
  have specified : (ofLevels (levels + 1)).specifiers true context state = _ :=
    specifiersRule_void isVoid isName
  have read : (ofLevels (levels + 1)).declarator .named context
      (state.movedTo (state.position + 1)) = _ :=
    declaratorRule_voidFunction isName paren isNone closes opens
  have declared := declaration_withBody specified rfl rfl (by simp [isName])
    (initDeclarator_voidFunction rfl read opens bodyRead) rfl (by simp [Node.body?, Node.ofChildren])
  have noExtension : skipExtensions context state = .ok () state :=
    skipExtensions_none (by simp [isVoid])
  simpa [externalDeclaration, noExtension, isVoid] using declared

end Productions

namespace BlockItems

/-- `void f(void) { items }` -/
def functionWords (items : BlockItems) : List Word :=
  Productions.voidFunctionWords "f" ++ [.openBrace] ++ items.words ++ [.closeBrace]

/-- The function is known at the top of the text, and its body is a block of its own. -/
def functionElaboration (place : SourceLocation) (items : BlockItems) : Elaboration :=
  items.elaborate place (Environment.bind [fun _ => none] "f" .ordinary).enter

/-- The tree of a text with one function whose body the items are. -/
def functionTree (place : SourceLocation) (items : BlockItems) : Node :=
  .ofChildren .program place
    [⟨.functionDeclaration, place, .function { name := "f", isPrototyped := true },
      [.named .builtinType place "void",
        .ofChildren .compound place (items.functionElaboration place).nodes]⟩]

end BlockItems

open Parse Productions

theorem wholeText_single {levels : Nat} {context : ParseContext} {state next : ParseState}
    {node : Node}
    (notEnd : (context.tokens.get state.position).kind ≠ .endOfFile)
    (read : externalDeclaration (ofLevels levels) context state = .ok { nodes := #[node] } next)
    (forward : state.position < next.position)
    (ends : (context.tokens.get next.position).kind = .endOfFile) :
    StartRule.wholeText (ofLevels levels) context state =
      .ok (.ofChildren .program (context.tokens.get state.position).location [node]) next := by
  have items : repeatFrom (recoveringStep (fun _ => false) (externalDeclaration (ofLevels levels)))
      #[] context state = .ok #[node] next := by
    rw [recoveringStep_item notEnd rfl read forward, recoveringStep_stop (.inl ends)]
    simp
  simp [StartRule.wholeText, recoveringItems_eq, items]

theorem wholeText_functionWords {dialect : Dialect} {items : BlockItems} {stream : TokenStream}
    {levels : Nat} (deep : items.depth + 5 ≤ levels + 1)
    (plain : ∀ name ∈ items.names, name ≠ "__builtin_va_list")
    (isText : stream.body.toList.map Token.word = items.functionWords)
    (diagnostics : Diagnostics) (place : SourceLocation) :
    ∃ tree next,
      StartRule.wholeText (ofLevels (levels + 1)) ((cLanguage dialect).context stream)
        (.first diagnostics) = .ok tree next ∧
      (stream.get next.position).kind = .endOfFile ∧
      tree.sameShape (items.functionTree place) = true ∧
      TypeNamesReported diagnostics next.diagnostics
        (items.functionElaboration place).dropped := by
  have size : 7 + items.words.length = stream.body.size := by
    rw [← Array.length_toList, ← List.length_map Token.word, isText]
    simp [BlockItems.functionWords, voidFunctionWords]
    omega
  have has : stream.HasWordsAt 0 items.functionWords := isText ▸ stream.hasWordsAt_body
  have lengths : (voidFunctionWords "f").length = 5 := rfl
  simp only [BlockItems.functionWords, TokenStream.hasWordsAt_append, TokenStream.hasWordsAt_cons,
    TokenStream.hasWordsAt_nil, List.length_append, lengths, List.length_cons, List.length_nil,
    and_true] at has
  obtain ⟨⟨⟨hasHead, opens⟩, hasItems⟩, closes⟩ := has
  have isVoid : (stream.get 0).kind = .keyword .voidWord := congrArg Word.kind hasHead.1
  have isOpening : (stream.get 5).kind = .punctuator .openBrace := congrArg Word.kind opens
  have isClosing : (stream.get (6 + items.words.length)).kind = .punctuator .closeBrace := by
    rw [show 6 + items.words.length = 0 + (5 + 0 + 1 + items.words.length) by omega]
    exact congrArg Word.kind closes
  -- The items are read in the scope of the function, which knows its own name.
  let top := (ParseState.first diagnostics).rescoped (ScopeStack.initial.addOrdinary "f").enter
  have environment : (top.movedTo 6).scopes.environment =
      (Environment.bind [fun _ => none] "f" .ordinary).enter := by
    change (ScopeStack.initial.addOrdinary "f").enter.environment = _
    rw [ScopeStack.environment_enter, ScopeStack.environment_addOrdinary]
    rfl
  have reads : ReadsItems ((cLanguage dialect).context stream) place (levels + 1) items :=
    readsItems rfl items _ deep
  obtain ⟨more, next, run, read⟩ :=
    reads (top.movedTo 6) #[] ⟨plain, rfl, hasItems, isClosing⟩
  rw [Array.empty_append] at run
  have position : next.position = 6 + items.words.length := read.position
  have problems := read.problems
  have shapes := read.nodes
  rw [environment] at problems shapes
  have bodyRead : functionBody (ofLevels (levels + 1)) ((cLanguage dialect).context stream)
      (top.movedTo 5) = _ :=
    functionBody_of_items isOpening run (by rw [position]; exact isClosing)
  have ends : (stream.get (next.position + 1)).kind = .endOfFile := by
    rw [position, show 6 + items.words.length + 1 = stream.body.size by omega]
    exact stream.get_size
  have notEnd : (stream.get 0).kind ≠ .endOfFile := by simp [isVoid]
  refine ⟨_, _, wholeText_single notEnd
    (externalDeclaration_voidFunction hasHead isOpening bodyRead) (Nat.succ_pos _) ends, ends, ?_,
    problems⟩
  simp [Node.ofChildren, Node.named, Node.leaf, Node.sameShape, Node.sameShapes,
    BlockItems.functionTree, BlockItems.functionElaboration, shapes]

/-- Names are types where the innermost binding in the blocks around them says so: the text of a
function is parsed to its elaboration, whatever blocks, declarations and products stand in it. The
only problems are those of products whose second name alone is a type. -/
theorem parseRule_functionWords (dialect : Dialect) (items : BlockItems)
    (shallow : items.depth ≤ 1000) (plain : ∀ name ∈ items.names, name ≠ "__builtin_va_list")
    (stream : TokenStream) (isText : stream.body.toList.map Token.word = items.functionWords)
    (diagnostics : Diagnostics) (place : SourceLocation) :
    ∃ tree after,
      (cLanguage dialect).parseRule "translation_unit" stream diagnostics = (some tree, after) ∧
      tree.sameShape (items.functionTree place) = true ∧
      TypeNamesReported diagnostics after (items.functionElaboration place).dropped := by
  obtain ⟨levels, enough⟩ : ∃ levels, maxNesting = levels + 1 := ⟨1023, rfl⟩
  have deep : items.depth + 5 ≤ levels + 1 := by
    rw [maxNesting] at enough
    omega
  obtain ⟨tree, next, read, ends, same, problems⟩ :=
    wholeText_functionWords deep plain isText diagnostics place
  rw [← enough] at read
  exact ⟨tree, next.diagnostics, Language.parseRule_ok .program read ends, same, problems⟩

/-- `typedef int T; { int T; T * x; } T * y; z * T;` -/
def BlockItems.shadowing : BlockItems :=
  .typedefInt "T" (.block (.object "T" (.product "T" "x" .done))
    (.product "T" "y" (.product "z" "T" .done)))

/-- The words one after the other, all at one place. -/
def TokenStream.ofWords (words : List Word) (place : SourceLocation) : TokenStream :=
  ⟨(words.map fun word => ⟨word.kind, word.lexeme, place, word.value⟩).toArray, place⟩

theorem parseRule_functionWords_shadowing :
    BlockItems.shadowing.depth ≤ 1000 ∧ "T" ∈ BlockItems.shadowing.names ∧
      (∀ name ∈ BlockItems.shadowing.names, name ≠ "__builtin_va_list") ∧
      (TokenStream.ofWords BlockItems.shadowing.functionWords ⟨"<input>", 1, 1, 0⟩).body.toList.map
        Token.word = BlockItems.shadowing.functionWords ∧
      (BlockItems.shadowing.functionElaboration ⟨"<input>", 1, 1, 0⟩).dropped = ["T"] ∧
      ∃ tree after,
        (cLanguage ⟨.c17, true⟩).parseRule "translation_unit"
          (.ofWords BlockItems.shadowing.functionWords ⟨"<input>", 1, 1, 0⟩) .empty =
            (some tree, after) ∧
        tree.sameShape (BlockItems.shadowing.functionTree ⟨"<input>", 1, 1, 0⟩) = true ∧
        TypeNamesReported .empty after
          (BlockItems.shadowing.functionElaboration ⟨"<input>", 1, 1, 0⟩).dropped := by
  have shallow : BlockItems.shadowing.depth ≤ 1000 := by decide
  have plain : ∀ name ∈ BlockItems.shadowing.names, name ≠ "__builtin_va_list" := by decide
  have isText : (TokenStream.ofWords BlockItems.shadowing.functionWords
      ⟨"<input>", 1, 1, 0⟩).body.toList.map Token.word = BlockItems.shadowing.functionWords := rfl
  exact ⟨shallow, by decide, plain, isText, by decide,
    parseRule_functionWords ⟨.c17, true⟩ .shadowing shallow plain _ isText .empty _⟩

end CFrontEnd
