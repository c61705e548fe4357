import CFrontEnd.Proofs.Grammar.Start
import CFrontEnd.Proofs.Suffixes.Chains
import CFrontEnd.Proofs.Types.Specifiers

/-!
The size and the alignment of a type take no suffix: what stands behind the parentheses around the type
is left over. In parentheses of its own that is a problem at once, and without them at the end.
-/

namespace CFrontEnd

open Parse Productions

/-! ## What is measured -/

inductive TypeMeasure
  | size
  | alignment

namespace TypeMeasure

def word : TypeMeasure → Keyword
  | size => .sizeofWord
  | alignment => .alignofWord

/-- The kind of the tree. -/
def kind : TypeMeasure → NodeKind
  | size => .sizeofType
  | alignment => .alignofType

/-- The kind of the tree for an expression in place of the type. -/
def expressionKind : TypeMeasure → NodeKind
  | size => .sizeofExpression
  | alignment => .alignofExpression

/-- The tree for a built-in type. -/
def node (measure : TypeMeasure) (spot inside : SourceLocation) (name : String) : Node :=
  ⟨measure.kind, spot, .none, [⟨.builtinType, inside, .name name, []⟩]⟩

def words (measure : TypeMeasure) (typeWords : List Keyword) : List Word :=
  .ofKeyword measure.word :: .openParen :: (typeWords.map Word.ofKeyword ++ [.closeParen])

end TypeMeasure

/-- The name of a built-in type that is written with words of GNU C17. -/
def IsTypeWords (typeWords : List Keyword) : Prop :=
  typeWords ∈ canonicalWords ∧ ∀ word ∈ typeWords, word.IsSpelledIn gnuC17

namespace TypeMeasure

variable {measure : TypeMeasure} {typeWords : List Keyword} {spot inside : SourceLocation}

theorem expressionText_node (name : String) : (measure.node spot inside name).expressionText.toList =
    measure.word.spelling.toList ++ '(' :: (name.toList ++ [')']) := by
  cases measure with
  | size =>
    have text : (node .size spot inside name).expressionText = "sizeof" ++ ("(" ++ name ++ ")") := rfl
    simp [text, word, Keyword.spelling]
  | alignment =>
    have text : (node .alignment spot inside name).expressionText =
        "_Alignof" ++ ("(" ++ name ++ ")") := rfl
    simp [text, word, Keyword.spelling]

theorem scans (isType : IsTypeWords typeWords) (next : List Char) :
    ScansAs gnuC17 (measure.node spot inside (wordsText typeWords)).expressionText.toList
      (measure.words typeWords) next := by
  have spelled : measure.word.IsSpelledIn gnuC17 := by
    cases measure <;> decide +kernel
  have notEmpty := canonicalWords_ne_nil typeWords isType.1
  have closes : EndsWord (')' :: next) := .cons next (by decide)
  have scansType : ScansAs gnuC17 (wordsText typeWords).toList (typeWords.map Word.ofKeyword)
      (')' :: next) := .keywords notEmpty isType.2 closes
  rw [expressionText_node]
  exact (ScansAs.ofKeyword spelled (.cons _ (by decide))).append
    (.openParen (scansType.append (.closeParen (.nil next))))

end TypeMeasure

/-! ## Reading the size of a type -/

variable {context : ParseContext} {state : ParseState} {typeWords : List Keyword}

theorem ReadsAs.builtinTypeName {spot : SourceLocation} (canonical : typeWords ∈ canonicalWords)
    (calm : state.panicking = false)
    (has : context.tokens.HasWordsAt state.position (typeWords.map Word.ofKeyword))
    (closes : (context.tokens.get (state.position + typeWords.length)).kind =
      .punctuator .closeParen) :
    ReadsAs Productions.typeName context state 1 (state.position + typeWords.length)
      ⟨.builtinType, spot, .name (wordsText typeWords), []⟩ := by
  intro levels enough
  obtain ⟨levels, rfl⟩ : ∃ fewer, levels = fewer + 1 := ⟨levels - 1, by omega⟩
  have ends : (context.tokens.get (state.position + typeWords.length)).kind.endsDeclarator = true := by
    rw [closes]
    rfl
  have noQualifiers : ({} : Qualifiers).keywords ++ typeWords = typeWords := rfl
  have specified : (ofLevels (levels + 1)).specifiers false context state =
      .ok (.spelled (context.tokens.get state.position).location {} typeWords)
        (state.movedTo (state.position + typeWords.length)) := by
    have stands : context.tokens.AtDeclarator (state.position + typeWords.length) :=
      (TokenStream.FollowsDeclarator.ends ends).atDeclarator
    exact specifiersRule_spelled canonical (by rwa [noQualifiers]) (by rwa [noQualifiers])
  have abstract : DeclaratorForm.abstract ≠ .named := by decide
  -- A declarator without name and derivations stands between the words and the parenthesis.
  have declares : ReadsWhole .abstract context
      (state.movedTo (state.position + typeWords.length)) 0 _ none id :=
    (ReadsDeclarator.empty abstract (.ends ends)).whole ends
  obtain ⟨declarator, _, derives, declared⟩ :=
    (declares.declarator calm (levels + 1)).enough (by omega)
  have based (place : SourceLocation) (state : ParseState) :
      baseType (.spelled place {} typeWords) context state =
        .ok (.named .builtinType place (wordsText typeWords)) state :=
    baseType_spelled canonical
  refine ⟨declarator.type (.named .builtinType (context.tokens.get state.position).location
    (wordsText typeWords)), derives _ _ ?_, ?_⟩
  · simp [Node.named, Node.leaf, Node.sameShape, Node.sameShapes]
  · simp [Productions.typeName, specified, based, declared]

/-- Behind the word stands a type in parentheses, and then no list of values. -/
theorem TypeMeasure.reads {measure : TypeMeasure} {spot inside : SourceLocation}
    (isType : IsTypeWords typeWords) (calm : state.panicking = false)
    (has : context.tokens.HasWordsAt state.position (measure.words typeWords))
    (noValues : (context.tokens.get (state.position + (measure.words typeWords).length)).kind ≠
      .punctuator .openBrace) :
    ReadsAs Productions.unary context state 2 (state.position + (measure.words typeWords).length)
      (measure.node spot inside (wordsText typeWords)) := by
  have place : state.position + (measure.words typeWords).length =
      state.position + 2 + typeWords.length + 1 := by
    simp [words]
    omega
  rw [place] at noValues ⊢
  obtain ⟨isWord, opens, rest⟩ := has
  rw [TokenStream.hasWordsAt_append, List.length_map] at rest
  obtain ⟨hasType, closes, _⟩ := rest
  have isWord : (context.tokens.get state.position).kind = .keyword measure.word :=
    Token.kind_of_word isWord
  have opens : (context.tokens.get (state.position + 1)).kind = .punctuator .openParen :=
    Token.kind_of_word opens
  have closes : (context.tokens.get (state.position + 2 + typeWords.length)).kind =
    .punctuator .closeParen := Token.kind_of_word closes
  obtain ⟨first, more, rfl⟩ := List.exists_cons_of_ne_nil (canonicalWords_ne_nil _ isType.1)
  have isFirst : (context.tokens.get (state.position + 2)).kind = .keyword first :=
    Token.kind_of_word hasType.1
  have beginsType : first.beginsType = true :=
    Keyword.beginsType_of_spellsType (spellsType_canonical _ isType.1 first List.mem_cons_self)
  have type : ReadsAs Productions.typeName context (state.movedTo (state.position + 2)) 1 _
      ⟨.builtinType, inside, .name (wordsText (first :: more)), []⟩ :=
    .builtinTypeName isType.1 calm hasType closes
  rw [ParseState.position_movedTo] at type
  generalize state.position + 2 + (first :: more).length = stop at closes noValues type ⊢
  intro levels enough
  obtain ⟨levels, rfl⟩ : ∃ fewer, levels = fewer + 1 := ⟨levels - 1, by omega⟩
  obtain ⟨node, same, read⟩ := type levels (by omega)
  have atType : atParenthesizedType context (state.movedTo (state.position + 1)) =
      .ok true (state.movedTo (state.position + 1)) := by
    simp [atParenthesizedType_apply, opens, beginsTypeName, isFirst, beginsType]
  have measured : Productions.measure (ofLevels levels) measure.expressionKind measure.kind context
      state = .ok (.ofChildren measure.kind (context.tokens.get state.position).location [node])
        (state.movedTo (stop + 1)) := by
    simp [Productions.measure, isWord, atType, parenthesizedTypeName, opens, read, closes,
      expectClosingParen, noValues]
  refine ⟨.ofChildren measure.kind (context.tokens.get state.position).location [node], ?_, ?_⟩
  · simp [Node.ofChildren, TypeMeasure.node, Node.sameShape, Node.sameShapes, same]
  · change unaryRule (ofLevels levels) context state = _
    cases measure with
    | size => exact (unaryRule_sizeof isWord).trans measured
    | alignment => exact (unaryRule_alignof isWord).trans measured

/-! ## What is left over -/

/-- What makes a longer operand is no operator between operands, and ends no expression. -/
theorem TokenKind.apart_of_extendsOperand {kind : TokenKind} (isSuffix : kind.extendsOperand = true) :
    (∀ operator, kind = .operator operator → BinaryOperator.ofOperator? operator = none ∧
      AssignmentOperator.ofOperator? operator = none) ∧
    kind ≠ .operator .question ∧ kind ≠ .punctuator .comma ∧ kind ≠ .punctuator .closeParen ∧
    kind ≠ .punctuator .openBrace ∧ kind ≠ .endOfFile := by
  cases kind with
  | operator operator => cases operator <;> simp_all [extendsOperand] <;> decide
  | punctuator punctuator => cases punctuator <;> simp_all [extendsOperand]
  | _ => cases isSuffix

/-- What is complete in front of a suffix that it does not take is a whole expression. -/
theorem ReadsAs.expressionBeforeSuffix {need stop : Nat} {tree : Node}
    (isC : context.language = cLanguage gnuC17)
    (noType : atParenthesizedType context state = .ok false state)
    (reads : ReadsAs Productions.unary context state need stop tree)
    (isSuffix : (context.tokens.get stop).kind.extendsOperand = true) :
    ReadsAs Productions.expression context state (need + 3) stop tree := by
  obtain ⟨noOperator, noQuestion, noComma, _⟩ := TokenKind.apart_of_extendsOperand isSuffix
  have conditional : ReadsAs Productions.conditional context state (need + 2) stop tree :=
    (reads.cast noType).conditional isC
      (Language.binaryBelow_of_notBinary fun operator same => (noOperator operator same).1) noQuestion
  intro levels enough
  obtain ⟨levels, rfl⟩ : ∃ fewer, levels = fewer + 1 := ⟨levels - 1, by omega⟩
  obtain ⟨node, same, read⟩ := conditional levels (by omega)
  have assigned : (ofLevels (levels + 1)).assignment context state = .ok node (state.movedTo stop) :=
    assignment_of_conditional read fun operator isOperator => (noOperator operator isOperator).2
  exact ⟨node, same, expression_of_single assigned noComma⟩

/-- From so many levels on, the production records one problem and gives up. -/
def GivesUp (production : Productions → Parse Node) (context : ParseContext) (state : ParseState)
    (need : Nat) : Prop :=
  ∀ levels, need ≤ levels → ∃ place message after,
    production (ofLevels levels) context state = .error .givenUp after ∧
    after.diagnostics = state.diagnostics.report .grammatical place message

namespace GivesUp

variable {need stop : Nat} {tree : Node}

theorem unclosed (calm : state.panicking = false)
    (opens : (context.tokens.get state.position).kind = .punctuator .openParen)
    (noBlock : (context.tokens.get (state.position + 1)).kind ≠ .punctuator .openBrace)
    (reads : ReadsAs Productions.expression context (state.movedTo (state.position + 1)) need stop tree)
    (noClosing : (context.tokens.get stop).kind ≠ .punctuator .closeParen) :
    GivesUp primary context state need := by
  intro levels enough
  obtain ⟨node, _, read⟩ := reads levels enough
  have calm : (state.movedTo stop).panicking = false := calm
  have failed : primary (ofLevels levels) context state =
      giveUp (context.tokens.get stop).location (.expected "')'" (context.tokens.get stop)) context
        (state.movedTo stop) := by
    simp [primary, parenthesized, opens, noBlock, read, expectClosingParen, noClosing,
      giveUp_apply calm]
  rw [giveUp_apply calm] at failed
  exact ⟨_, _, _, failed, rfl⟩

theorem inside (opens : (context.tokens.get state.position).kind = .punctuator .openParen)
    (noBlock : (context.tokens.get (state.position + 1)).kind ≠ .punctuator .openBrace)
    (gaveUp : GivesUp Productions.expression context (state.movedTo (state.position + 1)) need) :
    GivesUp primary context state need := by
  intro levels enough
  obtain ⟨place, message, after, failed, reported⟩ := gaveUp levels enough
  refine ⟨place, message, after, ?_, reported⟩
  simp [primary, parenthesized, opens, noBlock, failed]

/-- No rule around an operand that gives up goes on without it. -/
theorem expression (opens : (context.tokens.get state.position).kind = .punctuator .openParen)
    (noType : atParenthesizedType context state = .ok false state)
    (gaveUp : GivesUp primary context state need) :
    GivesUp Productions.expression context state (need + 4) := by
  intro levels enough
  obtain ⟨levels, rfl⟩ : ∃ fewer, levels = fewer + 4 := ⟨levels - 4, by omega⟩
  obtain ⟨place, message, after, failed, reported⟩ := gaveUp levels (by omega)
  refine ⟨place, message, after, ?_, reported⟩
  have unary : (ofLevels (levels + 1)).unary context state = .error .givenUp after := by
    change unaryRule (ofLevels levels) context state = _
    rw [unaryRule_suffixed (by rw [opens]; rfl)]
    simp [suffixed, failed]
  have cast : (ofLevels (levels + 2)).cast context state = .error .givenUp after := by
    change castRule (ofLevels (levels + 1)) context state = _
    rw [castRule_of_noType noType, unary]
  have conditional : (ofLevels (levels + 3)).conditional context state = .error .givenUp after := by
    change conditionalRule (ofLevels (levels + 2)) context state = _
    have within (steps least : Nat) :
        binaryWithin (ofLevels (levels + 2)) steps least context state = .error .givenUp after := by
      cases steps with
      | zero => exact cast
      | succ steps => simp [binaryWithin, cast]
    simp [conditionalRule, binary, within]
  have assignment : (ofLevels (levels + 4)).assignment context state = .error .givenUp after := by
    change assignmentRule (ofLevels (levels + 3)) context state = _
    simp [assignmentRule, conditional]
  simp [Productions.expression, assignment]

end GivesUp

namespace TypeMeasure

variable {measure : TypeMeasure} {symbol : Word} {spot inside : SourceLocation}

/-- The size of a type is a whole expression in front of a suffix. -/
theorem readsExpression (gnu : GnuContext context)
    (isType : IsTypeWords typeWords) (calm : state.panicking = false)
    (has : context.tokens.HasWordsAt state.position (measure.words typeWords ++ [symbol]))
    (isSuffix : symbol.kind.extendsOperand = true) :
    ReadsAs Productions.expression context state 5
      (state.position + (measure.words typeWords).length)
      (measure.node spot inside (wordsText typeWords)) := by
  rw [TokenStream.hasWordsAt_append] at has
  obtain ⟨hasMeasure, isSymbol, _⟩ := has
  have isSuffix : (context.tokens.get
      (state.position + (measure.words typeWords).length)).kind.extendsOperand = true := by
    rwa [Token.kind_of_word isSymbol]
  have isWord : (context.tokens.get state.position).kind = .keyword measure.word :=
    Token.kind_of_word hasMeasure.1
  have noType : atParenthesizedType context state = .ok false state := by
    simp [atParenthesizedType_apply, isWord]
  obtain ⟨_, _, _, _, noValues, _⟩ := TokenKind.apart_of_extendsOperand isSuffix
  exact (TypeMeasure.reads isType calm hasMeasure noValues).expressionBeforeSuffix gnu.language
    noType isSuffix

/-- In parentheses the suffix stands where the closing one should. -/
theorem givesUp (gnu : GnuContext context) (isType : IsTypeWords typeWords) (count : Nat)
    (calm : state.panicking = false)
    (has : context.tokens.HasWordsAt state.position
      (List.replicate (count + 1) Word.openParen ++ (measure.words typeWords ++ [symbol])))
    (isSuffix : symbol.kind.extendsOperand = true) :
    GivesUp Productions.expression context state (4 * count + 9) := by
  -- On the parentheses around: the innermost one is not closed where it should be, and those
  -- around it give up with it.
  induction count generalizing state with
  | zero =>
    rw [List.replicate_one, List.singleton_append, TokenStream.hasWordsAt_cons] at has
    obtain ⟨isOpening, hasRest⟩ := has
    have opens : (context.tokens.get state.position).kind = .punctuator .openParen :=
      Token.kind_of_word isOpening
    have reads : ReadsAs Productions.expression context (state.movedTo (state.position + 1)) 5 _
        (measure.node ⟨"", 1, 1, 0⟩ ⟨"", 1, 1, 0⟩ (wordsText typeWords)) :=
      readsExpression gnu isType calm hasRest isSuffix
    rw [TokenStream.hasWordsAt_append] at hasRest
    obtain ⟨hasMeasure, isSymbol, _⟩ := hasRest
    have isWord : (context.tokens.get (state.position + 1)).kind = .keyword measure.word :=
      Token.kind_of_word hasMeasure.1
    have noMeasureType : measure.word.beginsType = false := by
      cases measure <;> rfl
    have noClosing : (context.tokens.get
        (state.position + 1 + (measure.words typeWords).length)).kind ≠ .punctuator .closeParen := by
      rw [Token.kind_of_word isSymbol]
      exact (TokenKind.apart_of_extendsOperand isSuffix).2.2.2.1
    have noType : atParenthesizedType context state = .ok false state := by
      simp [atParenthesizedType_apply, beginsTypeName, isWord, noMeasureType]
    exact (GivesUp.unclosed calm opens (by simp [isWord]) reads noClosing).expression opens noType
  | succ count ih =>
    obtain ⟨isOpening, hasRest⟩ := has
    have opens : (context.tokens.get state.position).kind = .punctuator .openParen :=
      Token.kind_of_word isOpening
    have again : (context.tokens.get (state.position + 1)).kind = .punctuator .openParen :=
      Token.kind_of_word hasRest.1
    have noType : atParenthesizedType context state = .ok false state := by
      simp [atParenthesizedType_apply, beginsTypeName, again]
    have inner : GivesUp Productions.expression context (state.movedTo (state.position + 1))
        (4 * count + 9) := ih calm hasRest
    exact (GivesUp.inside opens (by simp [again]) inner).expression opens noType

/-- Whatever parentheses are put around it, the size of a type is not read with a suffix. -/
theorem not_read {tokens : TokenStream} {diagnostics : Diagnostics} (isType : IsTypeWords typeWords)
    (count : Nat) (shallow : 4 * count + 5 ≤ maxNesting)
    (has : tokens.HasWordsAt 0
      (List.replicate count Word.openParen ++ (measure.words typeWords ++ [symbol])))
    (isSuffix : symbol.kind.extendsOperand = true) :
    ((cLanguage gnuC17).parseRule "expression" tokens diagnostics).2 ≠ diagnostics := by
  have gnu : GnuContext ((cLanguage gnuC17).context tokens) :=
    ⟨rfl, by simp [Language.context, gnuC17]⟩
  have calm : (ParseState.first diagnostics).panicking = false := rfl
  cases count with
  | zero =>
    have reads : ReadsAs Productions.expression ((cLanguage gnuC17).context tokens)
        (.first diagnostics) 5 _ (measure.node ⟨"", 1, 1, 0⟩ ⟨"", 1, 1, 0⟩ (wordsText typeWords)) :=
      readsExpression gnu isType calm has isSuffix
    obtain ⟨node, _, read⟩ := reads maxNesting (by decide)
    rw [List.replicate_zero, List.nil_append, TokenStream.hasWordsAt_append] at has
    obtain ⟨_, isSymbol, _⟩ := has
    have goesOn : (tokens.get (0 + (measure.words typeWords).length)).kind ≠ .endOfFile := by
      rw [Token.kind_of_word isSymbol]
      exact (TokenKind.apart_of_extendsOperand isSuffix).2.2.2.2.2
    have parsed := Language.parseRule_unfinished .expression read calm goesOn
    exact fun same => Diagnostics.report_ne _ _ _ _ ((congrArg Prod.snd parsed).symm.trans same)
  | succ count =>
    have fails := givesUp gnu isType count calm has isSuffix
    obtain ⟨place, message, after, failed, reported⟩ := fails maxNesting (by omega)
    have parsed := Language.parseRule_error .expression failed
    rw [reported] at parsed
    exact fun same => Diagnostics.report_ne _ _ _ _ ((congrArg Prod.snd parsed).symm.trans same)

end TypeMeasure

end CFrontEnd
