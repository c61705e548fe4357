import CFrontEnd.Proofs.Types.Specifiers

/-!
Lists of parameters. Each parameter is a type around a name or around nothing, and the names go out of
scope behind the list.
-/

namespace CFrontEnd

/-! ## Scopes -/

namespace ScopeStack

/-- Names were added to the innermost scope, and no types. -/
structure AddsObjects (before after : ScopeStack) : Prop where
  outer : after.outer = before.outer
  noTypes : (∀ name, before.isTypedefName name = false) → ∀ name, after.isTypedefName name = false

namespace AddsObjects

variable {first second third : ScopeStack}

theorem refl (scopes : ScopeStack) : scopes.AddsObjects scopes :=
  ⟨rfl, id⟩

theorem trans (left : first.AddsObjects second) (right : second.AddsObjects third) :
    first.AddsObjects third :=
  ⟨right.outer.trans left.outer, fun noTypes => right.noTypes (left.noTypes noTypes)⟩

theorem addOrdinary (scopes : ScopeStack) (object : String) :
    scopes.AddsObjects (scopes.addOrdinary object) := by
  refine ⟨rfl, fun noTypes name => ?_⟩
  by_cases isObject : name = object
  · simp [isTypedefName, lookupName?, ScopeStack.addOrdinary, bind, toList, isObject]
  · have unchanged : (scopes.addOrdinary object).lookupName? name = scopes.lookupName? name := by
      have differs : (name == object) = false := beq_false_of_ne isObject
      simp [lookupName?, ScopeStack.addOrdinary, bind, toList, List.findSome?_cons,
        List.lookup_cons, differs]
    rw [isTypedefName, unchanged]
    exact noTypes name

theorem exit (adds : first.enter.AddsObjects second) : second.exit = first := by
  have outer : second.outer = first.toList := adds.outer
  simp [ScopeStack.exit, outer, toList]

end AddsObjects

end ScopeStack

open Parse Productions

/-! ## Single parameters -/

theorem TokenKind.noAttribute_of_endsDeclarator {kind : TokenKind}
    (ends : kind.endsDeclarator = true) : kind.mayBeginAttribute = false := by
  revert ends
  cases kind with
  | punctuator punctuator => cases punctuator <;> decide
  | _ => simp [TokenKind.endsDeclarator, TokenKind.mayBeginAttribute]

namespace ReadsTypeAt

variable {context : ParseContext} {state : ParseState} {need stop place : Nat}
  {specifiers : DeclarationSpecifiers} {base : Node} {around : Node → Node}

theorem parameter {parameter : Parameter}
    (reads : ReadsTypeAt .either context state need stop parameter.name parameter.type place
      specifiers base around)
    (calm : state.panicking = false)
    (ends : (context.tokens.get stop).kind.endsDeclarator = true) (levels : Nat) :
    Demands (need + 1) levels state.diagnostics (parameterDeclaration (ofLevels levels) context state)
      (∃ node scopes, node.sameShape parameter.node = true ∧ state.scopes.AddsObjects scopes ∧
        parameterDeclaration (ofLevels levels) context state =
          .ok node ((state.rescoped scopes).movedTo stop)) := by
  obtain ⟨place, qualifiers, words, rfl⟩ := reads.plain
  have noAttributes : skipAttributes context (state.movedTo stop) = .ok () (state.movedTo stop) :=
    skipAttributes_none (TokenKind.noAttribute_of_endsDeclarator ends)
  have whole := reads.declared.declarator (by simpa using calm) levels
  rw [← Nat.max_eq_right (Nat.le_add_left 1 need)]
  refine (reads.specified levels true).chain (fun specified => ?_) ?_
  · refine whole.carry ?_ ?_
    · rintro ⟨declarator, isName, derived, read⟩
      have same := reads.derives declarator derived
      cases given : parameter.name with
      | none =>
        refine ⟨⟨.parameterDeclaration, (context.tokens.get state.position).location,
          .declaration { name := none }, [declarator.type base]⟩, state.scopes, ?_, .refl _, ?_⟩
        · simp [Parameter.node, Node.sameShape, Node.sameShapes, given, same]
        · simp [parameterDeclaration, specified, reads.based, read, noAttributes, isName, given]
      | some object =>
        refine ⟨⟨.parameterDeclaration, declarator.location,
          .declaration { name := some object }, [declarator.type base]⟩,
          state.scopes.addOrdinary object, ?_, .addOrdinary _ _, ?_⟩
        · simp [Parameter.node, Node.sameShape, Node.sameShapes, given, same]
        · simp [parameterDeclaration, specified, reads.based, read, noAttributes, isName, given]
    · intro after gaveUp
      refine ⟨after, ?_, rfl⟩
      simp [parameterDeclaration, specified, reads.based, gaveUp]
  · intro after gaveUp
    exact ⟨after, by simp [parameterDeclaration, gaveUp], rfl⟩

end ReadsTypeAt

/-! ## Parameters one after another -/

theorem ParseState.IsPlain.rescoped {state : ParseState} {scopes : ScopeStack} (plain : state.IsPlain)
    (adds : state.scopes.AddsObjects scopes) : (state.rescoped scopes).IsPlain :=
  ⟨plain.calm, adds.noTypes plain.noTypes⟩

/-- Parameters begin with the word of a type, or are an ellipsis. -/
def Word.BeginsParameter (word : Word) : Prop :=
  word = .ellipsis ∨ ∃ keyword : Keyword, keyword.beginsType = true ∧ word = .ofKeyword keyword

/-- What is written as `text` is scanned as these words, and they are read as the parameters of a list
up to its closing parenthesis. -/
structure ReadsParameters (text : List Char) (words : List Word) (need : Nat) (trees : List Node)
    (isVariadic : Bool) : Prop where
  scans : ∀ later, ScansAs gnuC23 text words (')' :: later)
  begins : ∃ word rest, words = word :: rest ∧ word.BeginsParameter ∧
    ∀ second ∈ rest.head?, second.kind ≠ .punctuator .closeParen
  reads : ∀ {context : ParseContext} {state : ParseState},
    context.language = cLanguage gnuC23 → state.IsPlain →
    context.tokens.HasWordsAt state.position words →
    (context.tokens.get (state.position + words.length)).kind = .punctuator .closeParen →
    ∀ before levels, Demands need levels state.diagnostics
      (repeatFrom (addParameter (ofLevels levels)) ⟨before, false, true⟩ context state)
      (∃ nodes scopes, Node.sameShapes nodes trees = true ∧ state.scopes.AddsObjects scopes ∧
        repeatFrom (addParameter (ofLevels levels)) ⟨before, false, true⟩ context state =
          .ok ⟨before ++ nodes.toArray, isVariadic, true⟩
            ((state.rescoped scopes).movedTo (state.position + words.length)))

namespace ReadsParameters

theorem ellipsis : ReadsParameters "...".toList [.ellipsis] 0 [] true where
  scans later := by
    have known : (TokenKind.punctuator .ellipsis, "...") ∈ cSymbolKinds := by decide
    exact .symbol known (.of_noTails (by decide) (by decide) _)
  begins := ⟨_, _, rfl, .inl rfl, by simp⟩
  reads {context state} _ _ has _ before := by
    have isEllipsis : (context.tokens.get state.position).kind = .punctuator .ellipsis :=
      Token.kind_of_word has.1
    intro levels
    refine .of_good ⟨[], state.scopes, rfl, .refl _, ?_⟩
    apply repeatFrom_done
    simp [addParameter, isEllipsis]

end ReadsParameters

namespace ReadsType

variable {text : String} {words : List Word} {need : Nat} {name : Option String}
  {tree : Node} {context : ParseContext} {state : ParseState}

theorem beginsKeyword (reads : ReadsType .either text words need name tree)
    (has : context.tokens.HasWordsAt state.position words) :
    ∃ keyword, (context.tokens.get state.position).kind = .keyword keyword := by
  obtain ⟨keyword, rest, rfl, _⟩ := reads.begins
  exact ⟨keyword, Token.kind_of_word has.1⟩

/-- A parameter in front of a comma or of the end is read by one step of the list. -/
theorem parameter {parameter : Parameter}
    (reads : ReadsType .either text words need parameter.name parameter.type)
    (isC : context.language = cLanguage gnuC23) (plain : state.IsPlain)
    (has : context.tokens.HasWordsAt state.position words)
    (ends : (context.tokens.get (state.position + words.length)).kind.endsDeclarator = true)
    (list : ParameterList) (levels : Nat) :
    Demands (need + 1) levels state.diagnostics
      (addParameter (ofLevels levels) list context state)
      (∃ node scopes, node.sameShape parameter.node = true ∧ state.scopes.AddsObjects scopes ∧
        addParameter (ofLevels levels) list context state =
          (if (context.tokens.get (state.position + words.length)).kind = .punctuator .comma then
            .ok (.yield { list with nodes := list.nodes.push node })
              ((state.rescoped scopes).movedTo (state.position + words.length + 1))
          else
            .ok (.done { list with nodes := list.nodes.push node })
              ((state.rescoped scopes).movedTo (state.position + words.length)))) := by
  obtain ⟨keyword, isKeyword⟩ := reads.beginsKeyword has
  have noEllipsis : (context.tokens.get state.position).kind ≠ .punctuator .ellipsis := by
    simp [isKeyword]
  obtain ⟨place, specifiers, base, around, readsAt⟩ := reads.reads isC plain has ends
  refine (readsAt.parameter plain.calm ends levels).carry ?_ ?_
  · rintro ⟨node, scopes, same, adds, read⟩
    refine ⟨node, scopes, same, adds, ?_⟩
    by_cases isComma :
        (context.tokens.get (state.position + words.length)).kind = .punctuator .comma
    · simp [addParameter, noEllipsis, read, isComma]
    · simp [addParameter, noEllipsis, read, isComma]
  · intro after gaveUp
    exact ⟨after, by simp [addParameter, noEllipsis, gaveUp], rfl⟩

end ReadsType

namespace ReadsParameters

variable {text : String} {words : List Word} {need : Nat} {parameter : Parameter}

theorem last (reads : ReadsType .either text words need parameter.name parameter.type) :
    ReadsParameters text.toList words (need + 1) [parameter.node] false where
  scans later := reads.scans _ (.cons later (by decide))
  begins := by
    obtain ⟨keyword, rest, isFirst, beginsType, behind⟩ := reads.begins
    refine ⟨_, rest, isFirst, .inr ⟨keyword, beginsType, rfl⟩, ?_⟩
    intro second isSecond closes
    have goesOn := behind second isSecond
    simp [closes, TokenKind.endsDeclarator] at goesOn
  reads {context state} isC plain has closes := by
    intro before levels
    refine (reads.parameter isC plain has (by rw [closes]; rfl) ⟨before, false, true⟩ levels).carry
      ?_ ?_
    · rintro ⟨node, scopes, same, adds, added⟩
      refine ⟨[node], scopes, ?_, adds, ?_⟩
      · simpa [Node.sameShapes] using same
      · rw [closes] at added
        apply repeatFrom_done
        simpa using added
    · intro after gaveUp
      exact ⟨after, repeatFrom_error gaveUp, rfl⟩

theorem cons {others : List Char} {otherWords : List Word} {more : Nat} {trees : List Node}
    {isVariadic : Bool}
    (reads : ReadsType .either text words need parameter.name parameter.type)
    (rest : ReadsParameters others otherWords more trees isVariadic) :
    ReadsParameters (text.toList ++ ',' :: ' ' :: others) (words ++ .comma :: otherWords)
      (max (need + 1) more) (parameter.node :: trees) isVariadic where
  scans later := by
    have isComma : EndsPart (',' :: ' ' :: others ++ ')' :: later) := .cons _ (by decide)
    exact (reads.scans _ isComma).append (.comma (rest.scans later))
  begins := by
    obtain ⟨keyword, between, isFirst, beginsType, behind⟩ := reads.begins
    refine ⟨_, _, by rw [isFirst]; rfl, .inr ⟨keyword, beginsType, rfl⟩, ?_⟩
    intro second isSecond closes
    cases between with
    | nil =>
      obtain rfl := Option.some.inj isSecond
      simp [Word.comma, Word.punctuator] at closes
    | cons word _ =>
      have goesOn := behind second isSecond
      simp [closes, TokenKind.endsDeclarator] at goesOn
  reads {context state} isC plain has closes := by
    rw [TokenStream.hasWordsAt_append, TokenStream.hasWordsAt_cons] at has
    obtain ⟨hasFirst, isComma, hasRest⟩ := has
    have comma : (context.tokens.get (state.position + words.length)).kind = .punctuator .comma :=
      Token.kind_of_word isComma
    have length : state.position + (words ++ .comma :: otherWords).length =
        state.position + words.length + 1 + otherWords.length := by
      simp
      omega
    rw [length] at closes ⊢
    intro before levels
    refine (reads.parameter isC plain hasFirst (by rw [comma]; rfl) ⟨before, false, true⟩
      levels).chain ?_ ?_
    · rintro ⟨node, scopes, same, adds, added⟩
      have progress : ((state.rescoped scopes).movedTo
          (state.position + words.length + 1)).remaining context < state.remaining context := by
        obtain ⟨keyword, isKeyword⟩ := reads.beginsKeyword hasFirst
        have notEnd : (context.tokens.get state.position).kind ≠ .endOfFile := by
          simp [isKeyword]
        have forward : state.position < state.position + words.length + 1 := by omega
        exact ParseState.remaining_movedTo_lt notEnd forward
      rw [comma, if_pos rfl] at added
      rw [repeatFrom_yield added progress]
      have later := rest.reads isC
        ((plain.rescoped adds).movedTo (state.position + words.length + 1)) hasRest closes
        (before.push node) levels
      refine later.imp ?_
      rintro ⟨nodes, inside, sames, addsMore, read⟩
      refine ⟨node :: nodes, inside, ?_, adds.trans addsMore, ?_⟩
      · simp [Node.sameShapes, same, sames]
      · rw [read]
        simp
    · intro after gaveUp
      exact ⟨after, repeatFrom_error gaveUp, rfl⟩

end ReadsParameters

/-! ## Whole lists -/

/-- What stands between the parentheses of a function. -/
structure ReadsParameterList (text : List Char) (words : List Word) (need : Nat) (trees : List Node)
    (isVariadic isPrototyped : Bool) : Prop where
  scans : ∀ later, ScansAs gnuC23 text words (')' :: later)
  begins : ∀ {stream : TokenStream} {place : Nat},
    stream.HasWordsAt place (words ++ [.closeParen]) →
    (stream.get place).kind.beginsParameters = true
  reads : ∀ {context : ParseContext} {state : ParseState},
    context.language = cLanguage gnuC23 → state.IsPlain →
    context.tokens.HasWordsAt state.position (words ++ [.closeParen]) →
    ∀ levels, Demands need levels state.diagnostics
      (parameterList (ofLevels levels) context state)
      (∃ list scopes, Node.sameShapes list.nodes.toList trees = true ∧
        list.isVariadic = isVariadic ∧ list.isPrototyped = isPrototyped ∧
        state.scopes.AddsObjects scopes ∧
        parameterList (ofLevels levels) context state =
          .ok list ((state.rescoped scopes).movedTo (state.position + words.length + 1)))

namespace ReadsParameterList

theorem unprototyped : ReadsParameterList [] [] 0 [] false false where
  scans later := .nil _
  begins has := by rw [Token.kind_of_word has.1]; rfl
  reads {context state} _ _ has levels := by
    have closes : (context.tokens.get state.position).kind = .punctuator .closeParen :=
      Token.kind_of_word has.1
    refine .of_good ⟨{ isPrototyped := false }, state.scopes, rfl, rfl, rfl, .refl _, ?_⟩
    simp [parameterList, closes]

theorem voidOnly : ReadsParameterList "void".toList [.ofKeyword .voidWord] 0 [] false true where
  scans later := by
    have isSpelled : Keyword.voidWord.IsSpelled := Keyword.isSpelled_of_spellsType _ rfl
    have ends : EndsWord (')' :: later) := .cons later (by decide)
    exact ScansAs.ofKeyword isSpelled ends
  begins has := by rw [Token.kind_of_word has.1]; rfl
  reads {context state} _ _ has levels := by
    have isVoid : (context.tokens.get state.position).kind = .keyword .voidWord :=
      Token.kind_of_word has.1
    have closes : (context.tokens.get (state.position + 1)).kind = .punctuator .closeParen :=
      Token.kind_of_word has.2.1
    refine .of_good ⟨{}, state.scopes, rfl, rfl, rfl, .refl _, ?_⟩
    simp [parameterList, isVoid, closes]

/-- Parameters are told from the lists without any by their first two words. -/
theorem opening {text : List Char} {words : List Word} {need : Nat} {trees : List Node}
    {isVariadic : Bool} (read : ReadsParameters text words need trees isVariadic)
    (notVoid : words ≠ [.ofKeyword .voidWord]) {stream : TokenStream} {place : Nat}
    (has : stream.HasWordsAt place words) :
    (stream.get place).kind.beginsParameters = true ∧
      (stream.get place).kind ≠ .punctuator .closeParen ∧
      (stream.get place).kind ≠ .identifier ∧
      ¬ ((stream.get place).kind = .keyword .voidWord ∧
        (stream.get (place + 1)).kind = .punctuator .closeParen) := by
  obtain ⟨word, rest, rfl, begins, behind⟩ := read.begins
  obtain ⟨isFirst, hasRest⟩ := has
  rw [Token.kind_of_word isFirst]
  rcases begins with rfl | ⟨keyword, beginsType, rfl⟩
  · simp [Word.ellipsis, Word.punctuator, TokenKind.beginsParameters]
  · have noAttribute : keyword ≠ .attributeWord := by
      rintro rfl
      exact absurd beginsType (by decide)
    refine ⟨by simpa [Word.ofKeyword, Word.keyword, TokenKind.beginsParameters] using noAttribute,
      by simp [Word.ofKeyword, Word.keyword], by simp [Word.ofKeyword, Word.keyword], ?_⟩
    rintro ⟨isVoid, closes⟩
    obtain rfl := TokenKind.keyword.inj isVoid
    cases rest with
    | nil => exact notVoid rfl
    | cons second _ =>
      rw [Token.kind_of_word hasRest.1] at closes
      exact behind second rfl closes

theorem ofParameters {text : List Char} {words : List Word} {need : Nat} {trees : List Node}
    {isVariadic : Bool} (read : ReadsParameters text words need trees isVariadic)
    (notVoid : words ≠ [.ofKeyword .voidWord]) :
    ReadsParameterList text words need trees isVariadic true where
  scans := read.scans
  begins has := by
    rw [TokenStream.hasWordsAt_append] at has
    exact (opening read notVoid has.1).1
  reads {context state} isC plain has levels := by
    rw [TokenStream.hasWordsAt_append, TokenStream.hasWordsAt_cons] at has
    obtain ⟨hasWords, isClose, _⟩ := has
    obtain ⟨_, notClosed, noName, notOnlyVoid⟩ := opening read notVoid hasWords
    have closes : (context.tokens.get (state.position + words.length)).kind =
        .punctuator .closeParen :=
      Token.kind_of_word isClose
    refine (read.reads isC plain hasWords closes #[] levels).carry ?_ ?_
    · rintro ⟨nodes, scopes, same, adds, read⟩
      refine ⟨⟨nodes.toArray, isVariadic, true⟩, scopes, same, rfl, rfl, adds, ?_⟩
      have read : repeatFrom (addParameter (ofLevels levels)) {} context state = _ := read
      simp [parameterList, notClosed, notOnlyVoid, atOldStyleParameters, noName, parameters, read,
        closes]
    · intro after gaveUp
      have gaveUp : repeatFrom (addParameter (ofLevels levels)) {} context state = _ := gaveUp
      refine ⟨after, ?_, rfl⟩
      simp [parameterList, notClosed, notOnlyVoid, atOldStyleParameters, noName, parameters, gaveUp]

end ReadsParameterList

end CFrontEnd
