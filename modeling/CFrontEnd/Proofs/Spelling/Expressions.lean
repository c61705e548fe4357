import CFrontEnd.Proofs.Expression.Completeness
import CFrontEnd.Proofs.Expression.Forms
import CFrontEnd.Proofs.Scan.Chains
import CFrontEnd.Proofs.Spelling.OperatorTrees

/-!
What is written from the tree of an expression is scanned as certain words, and these are read as the
tree again. Each form of a tree needs this of its parts alone.
-/

namespace CFrontEnd

/-- A text in C17 with the extensions of GNU. -/
structure GnuContext (context : ParseContext) : Prop where
  language : context.language = cLanguage gnuC17
  gnu : context.dialect.gnu = true

section

variable {context : ParseContext} {state : ParseState}

theorem isTypeName_cLanguage {dialect : Dialect} (isC : context.language = cLanguage dialect)
    (plain : state.IsPlain) (name : String) :
    context.language.isTypeName state.scopes.isTypedefName name =
      (name == "__builtin_va_list") := by
  rw [isC]
  change (name == "__builtin_va_list" || state.scopes.isTypedefName name) = _
  rw [plain.noTypes, Bool.or_false]

theorem StartsOperand.parenthesized
    (opens : (context.tokens.get state.position).kind = .punctuator .openParen)
    (noType : Productions.beginsTypeName context state
      (context.tokens.get (state.position + 1)) = false) : StartsOperand context state := by
  refine ⟨.inr (.inr opens), ?_, ?_⟩
  · simp [Productions.beginsTypeName, opens]
  · simp [Productions.atParenthesizedType_apply, noType]

theorem StartsOperand.single
    (kind : (context.tokens.get state.position).kind = .identifier ∨
      (context.tokens.get state.position).kind = .literal .integer)
    (noTypeName : Productions.beginsTypeName context state
      (context.tokens.get state.position) = false) : StartsOperand context state := by
  refine ⟨?_, noTypeName, ?_⟩
  · rcases kind with same | same
    · exact .inl same
    · exact .inr (.inl same)
  · rw [Productions.atParenthesizedType_apply]
    rcases kind with same | same <;> simp [same]

theorem StartsOperand.inside (starts : StartsOperand context state) :
    Productions.beginsTypeName context state (context.tokens.get state.position) = false ∧
      (context.tokens.get state.position).kind ≠ .punctuator .openBrace := by
  refine ⟨starts.noTypeName, ?_⟩
  intro isBrace
  cases starts.punctuator isBrace

end

/-- The words that the tree is written with, and that they are read as the tree. -/
structure ReadsBack (tree : Node) (words : List Word) : Prop where
  begins : BeginsOperand tree.expressionText.toList
  scans : ∀ next, EndsWord next → (tree.isBareInteger = true → next.head? ≠ some '.') →
    ScansAs gnuC17 tree.expressionText.toList words next
  starts : ∀ {context : ParseContext} {state : ParseState}, GnuContext context → state.IsPlain →
    context.tokens.HasWordsAt state.position words → StartsOperand context state
  reads : ∀ {context : ParseContext} {state : ParseState}, GnuContext context → state.IsPlain →
    context.tokens.HasWordsAt state.position words →
    ReadsOperand context state (6 * tree.height + 4) (state.position + words.length) tree

/-- What stands between the parentheses around a tree. -/
structure ReadsInside (tree : Node) (text : List Char) (words : List Word) : Prop where
  scans : ∀ later, ScansAs gnuC17 text words (')' :: later)
  starts : ∀ {context : ParseContext} {state : ParseState}, GnuContext context → state.IsPlain →
    context.tokens.HasWordsAt state.position words →
    Productions.beginsTypeName context state (context.tokens.get state.position) = false ∧
      (context.tokens.get state.position).kind ≠ .punctuator .openBrace
  reads : ∀ {context : ParseContext} {state : ParseState}, GnuContext context → state.IsPlain →
    context.tokens.HasWordsAt state.position words →
    (context.tokens.get (state.position + words.length)).kind = .punctuator .closeParen →
    ReadsAs Productions.expression context state (6 * tree.height + 4)
      (state.position + words.length) tree

theorem ReadsInside.enclosed {tree : Node} {text : List Char} {words : List Word}
    (inside : ReadsInside tree text words) (inner : String)
    (whole : tree.expressionText = Spelling.parenthesized inner) (same : inner.toList = text) :
    ReadsBack tree (.openParen :: (words ++ [.closeParen])) := by
  have isText : tree.expressionText.toList = '(' :: (text ++ [')']) := by
    rw [whole, ← same]
    simp [Spelling.parenthesized]
  have parts {context : ParseContext} {state : ParseState}
      (has : context.tokens.HasWordsAt state.position (.openParen :: (words ++ [.closeParen]))) :
      (context.tokens.get state.position).kind = .punctuator .openParen ∧
      context.tokens.HasWordsAt (state.position + 1) words ∧
      (context.tokens.get (state.position + 1 + words.length)).kind = .punctuator .closeParen := by
    rw [TokenStream.hasWordsAt_cons, TokenStream.hasWordsAt_append,
      TokenStream.hasWordsAt_cons] at has
    obtain ⟨opens, hasWords, closes, _⟩ := has
    exact ⟨congrArg Word.kind opens, hasWords, congrArg Word.kind closes⟩
  refine ⟨?_, ?_, ?_, ?_⟩
  · rw [isText]
    exact beginsOperand_paren _
  · intro next _ _
    rw [isText]
    exact .openParen ((inside.scans next).append (.closeParen (.nil next)))
  -- A parenthesis begins an operand unless a type follows it, which what is inside rules out.
  · intro context state gnu plain has
    obtain ⟨opens, hasWords, _⟩ := parts has
    exact .parenthesized opens (inside.starts gnu (plain.movedTo (state.position + 1)) hasWords).1
  · intro context state gnu plain has
    obtain ⟨opens, hasWords, closes⟩ := parts has
    rw [length_enclosed]
    have starts := inside.starts gnu (plain.movedTo (state.position + 1)) hasWords
    exact .parenthesized opens starts.2
      (inside.reads gnu (plain.movedTo (state.position + 1)) hasWords closes) closes

namespace ReadsBack

variable {tree left right : Node} {words leftWords rightWords : List Word} {spot : SourceLocation}

/-! ## Names and integers -/

theorem identifier {name : String} (isName : IsName gnuC17 name)
    (notBuiltin : name ≠ "__builtin_va_list") :
    ReadsBack ⟨.identifier, spot, .name name, []⟩ [.identifier name] := by
  have noType {context : ParseContext} {state : ParseState} (gnu : GnuContext context)
      (plain : state.IsPlain) :
      context.language.isTypeName state.scopes.isTypedefName name = false := by
    rw [isTypeName_cLanguage gnu.language plain]
    simpa using notBuiltin
  refine ⟨beginsOperand_word isName.1, ?_, ?_, ?_⟩
  · intro next ends _
    exact .identifier isName.1 isName.2 ends
  · intro context state gnu plain has
    obtain ⟨kind, lexeme, _⟩ := Token.word_eq_mk.mp has.1
    refine .single (.inl kind) ?_
    simp [Productions.beginsTypeName, kind, lexeme, noType gnu plain]
  · intro context state gnu plain has
    obtain ⟨kind, lexeme, _⟩ := Token.word_eq_mk.mp has.1
    exact (ReadsOperand.identifier kind lexeme (noType gnu plain)).mono (Nat.zero_le _)

theorem integer {value : Nat} {suffix : IntegerSuffix} (isInteger : IsIntegerLiteral value suffix) :
    ReadsBack ⟨.integerLiteral, spot, .literal (.integer value suffix), []⟩
      [.integer value suffix] := by
  refine ⟨beginsOperand_integer value suffix, ?_, ?_, ?_⟩
  · intro next ends notPoint
    refine .integer isInteger.1 isInteger.2 ends ?_
    intro noSuffix
    have isBare := integerSuffix?_spelling suffix isInteger.2
    rw [noSuffix] at isBare
    obtain rfl := Option.some.inj isBare
    exact notPoint rfl
  · intro context state _ _ has
    obtain ⟨kind, _, _⟩ := Token.word_eq_mk.mp has.1
    exact .single (.inr kind) (by simp [Productions.beginsTypeName, kind])
  · intro context state _ _ has
    obtain ⟨kind, _, isValue⟩ := Token.word_eq_mk.mp has.1
    exact (ReadsOperand.integer kind isValue).mono (Nat.zero_le _)

end ReadsBack

/-! ## Operators in parentheses -/

theorem exists_binaryOperator (dialect : Dialect) (binary : BinaryOperator) :
    ∃ operator level, BinaryOperator.ofOperator? operator = some binary ∧
      (TokenKind.operator operator, binary.spelling) ∈ cSymbolKinds ∧
      (cLanguage dialect).precedence? operator = some level := by
  have symbol : ∃ operator, BinaryOperator.ofOperator? operator = some binary ∧
      (TokenKind.operator operator, binary.spelling) ∈ cSymbolKinds := by
    cases binary with
    | multiply => exact ⟨.star, rfl, by decide⟩
    | divide => exact ⟨.slash, rfl, by decide⟩
    | remainder => exact ⟨.percent, rfl, by decide⟩
    | add => exact ⟨.plus, rfl, by decide⟩
    | subtract => exact ⟨.minus, rfl, by decide⟩
    | shiftLeft => exact ⟨.shiftLeft, rfl, by decide⟩
    | shiftRight => exact ⟨.shiftRight, rfl, by decide⟩
    | less => exact ⟨.less, rfl, by decide⟩
    | greater => exact ⟨.greater, rfl, by decide⟩
    | lessEqual => exact ⟨.lessEqual, rfl, by decide⟩
    | greaterEqual => exact ⟨.greaterEqual, rfl, by decide⟩
    | equal => exact ⟨.equal, rfl, by decide⟩
    | notEqual => exact ⟨.notEqual, rfl, by decide⟩
    | bitAnd => exact ⟨.ampersand, rfl, by decide⟩
    | bitXor => exact ⟨.caret, rfl, by decide⟩
    | bitOr => exact ⟨.pipe, rfl, by decide⟩
    | logicalAnd => exact ⟨.logicalAnd, rfl, by decide⟩
    | logicalOr => exact ⟨.logicalOr, rfl, by decide⟩
  obtain ⟨operator, isBinary, known⟩ := symbol
  obtain ⟨entry, found, _⟩ := binary_operatorEntry dialect isBinary
  exact ⟨operator, entry.precedence, isBinary, known, by simp [Language.precedence?, found]⟩

theorem exists_assignmentOperator (assignment : AssignmentOperator) :
    ∃ operator, AssignmentOperator.ofOperator? operator = some assignment ∧
      (TokenKind.operator operator, assignment.spelling) ∈ cSymbolKinds := by
  cases assignment with
  | assign => exact ⟨.assign, rfl, by decide⟩
  | multiply => exact ⟨.starAssign, rfl, by decide⟩
  | divide => exact ⟨.slashAssign, rfl, by decide⟩
  | remainder => exact ⟨.percentAssign, rfl, by decide⟩
  | add => exact ⟨.plusAssign, rfl, by decide⟩
  | subtract => exact ⟨.minusAssign, rfl, by decide⟩
  | shiftLeft => exact ⟨.shiftLeftAssign, rfl, by decide⟩
  | shiftRight => exact ⟨.shiftRightAssign, rfl, by decide⟩
  | bitAnd => exact ⟨.andAssign, rfl, by decide⟩
  | bitXor => exact ⟨.xorAssign, rfl, by decide⟩
  | bitOr => exact ⟨.orAssign, rfl, by decide⟩

/-- What stands between parentheses, scanned in front of the closing one. -/
theorem ReadsBack.scansInside {tree : Node} {words : List Word} (reads : ReadsBack tree words)
    {character : Char} (later : List Char)
    (ends : (character == '_' || character.isAlphanum) = false ∧ character ≠ '"' ∧
      character ≠ '\'')
    (notPoint : character ≠ '.') :
    ScansAs gnuC17 tree.expressionText.toList words (character :: later) :=
  reads.scans _ (.cons later ends) (by simp [notPoint])

namespace ReadsInside

variable {left right : Node} {leftWords rightWords : List Word} {spot : SourceLocation}

section Separated

variable {kind : NodeKind} {head : Char} {glue : List Char → List Char}

/-- Two operands with separators between them, if they can be read with those. -/
theorem separated (separators : List Word) (notEmpty : 0 < separators.length)
    (ends : (head == '_' || head.isAlphanum) = false ∧ head ≠ '"' ∧ head ≠ '\'')
    (notPoint : head ≠ '.')
    (scans : ∀ {text next : List Char} {words : List Word}, ScansAs gnuC17 text words next →
      ScansAs gnuC17 (head :: glue text) (separators ++ words) next)
    (first : ReadsBack left leftWords) (second : ReadsBack right rightWords)
    (reads : ∀ {context : ParseContext} {state : ParseState} {need place stop : Nat},
      GnuContext context → context.tokens.HasWordsAt place separators →
      (context.tokens.get stop).kind = .punctuator .closeParen →
      state.position ≤ place → place < stop →
      StartsOperand context state → ReadsOperand context state need place left →
      StartsOperand context (state.movedTo (place + separators.length)) →
      ReadsOperand context (state.movedTo (place + separators.length)) need stop right →
      ReadsAs Productions.expression context state (need + 6) stop
        ⟨kind, spot, .none, [left, right]⟩) :
    ReadsInside ⟨kind, spot, .none, [left, right]⟩
      (left.expressionText.toList ++ head :: glue right.expressionText.toList)
      (leftWords ++ (separators ++ rightWords)) := by
  refine ⟨?_, ?_, ?_⟩
  · intro later
    have scansRight := second.scansInside later (by decide : _ ∧ ')' ≠ '"' ∧ ')' ≠ '\'') (by decide)
    exact (first.scansInside _ ends notPoint).append (scans scansRight)
  · intro context state gnu plain has
    rw [TokenStream.hasWordsAt_append] at has
    exact (first.starts gnu plain has.1).inside
  · intro context state gnu plain has closes
    rw [TokenStream.hasWordsAt_append, TokenStream.hasWordsAt_append] at has
    obtain ⟨hasLeft, hasSeparators, hasRight⟩ := has
    have leftLower : left.height + 1 ≤ Node.height ⟨kind, spot, .none, [left, right]⟩ :=
      Node.height_child (by simp)
    have rightLower : right.height + 1 ≤ Node.height ⟨kind, spot, .none, [left, right]⟩ :=
      Node.height_child (by simp)
    have plainRight := plain.movedTo (state.position + leftWords.length + separators.length)
    -- Both operands are lower than the whole, and the levels that it asks for beyond theirs are
    -- those of the parentheses around it.
    obtain ⟨need, lower⟩ : ∃ need, Node.height ⟨kind, spot, .none, [left, right]⟩ = need + 1 :=
      ⟨Node.height ⟨kind, spot, .none, [left, right]⟩ - 1, by omega⟩
    have leftRead : ReadsOperand context state (6 * need + 4) _ left :=
      (first.reads gnu plain hasLeft).mono (by omega)
    have rightRead : ReadsOperand context _ (6 * need + 4) _ right :=
      (second.reads gnu plainRight hasRight).mono (by omega)
    have stop : state.position + (leftWords ++ (separators ++ rightWords)).length =
        state.position + leftWords.length + separators.length + rightWords.length := by
      simp only [List.length_append]
      omega
    rw [stop] at closes ⊢
    exact (reads gnu hasSeparators closes (by omega) (by omega)
      (first.starts gnu plain hasLeft) leftRead (second.starts gnu plainRight hasRight)
      rightRead).mono (by omega)

end Separated

theorem binary (operator : BinaryOperator) (first : ReadsBack left leftWords)
    (second : ReadsBack right rightWords) :
    ∃ words, ReadsInside ⟨.binary operator, spot, .none, [left, right]⟩
      (left.expressionText.toList ++ ' ' :: (operator.spelling.toList ++ ' ' ::
        right.expressionText.toList)) words := by
  obtain ⟨symbol, level, isBinary, known, hasLevel⟩ := exists_binaryOperator gnuC17 operator
  refine ⟨_, separated [⟨.operator symbol, operator.spelling, none⟩] (by simp) (by decide)
    (by decide) (fun scans => .space (.spacedSymbol known scans)) first second ?_⟩
  intro context state need place stop gnu hasSymbol closes start forward leftStarts leftReads
    rightStarts rightReads
  have isSymbol := congrArg Word.kind hasSymbol.1
  have ends := Phrase.endsBefore_binary isSymbol isBinary hasLevel
  have leftCast := leftReads.cast leftStarts ends.1
  have rightCast := rightReads.cast rightStarts (by rw [closes]; rfl)
  have whole : ReadsAs Productions.conditional context state (need + 3) stop
      ⟨.binary operator, spot, .none, [left, right]⟩ :=
    .binary gnu.language isSymbol isBinary hasLevel leftCast rightCast (by rw [closes]; rfl) start
      forward
  exact (whole.inParens closes).mono (by omega)

theorem assignment (operator : AssignmentOperator) (first : ReadsBack left leftWords)
    (second : ReadsBack right rightWords) :
    ∃ words, ReadsInside ⟨.assignment operator, spot, .none, [left, right]⟩
      (left.expressionText.toList ++ ' ' :: (operator.spelling.toList ++ ' ' ::
        right.expressionText.toList)) words := by
  obtain ⟨symbol, isAssignment, known⟩ := exists_assignmentOperator operator
  refine ⟨_, separated [⟨.operator symbol, operator.spelling, none⟩] (by simp) (by decide)
    (by decide) (fun scans => .space (.spacedSymbol known scans)) first second ?_⟩
  intro context state need place stop gnu hasSymbol closes start forward leftStarts leftReads
    rightStarts rightReads
  have isSymbol := congrArg Word.kind hasSymbol.1
  obtain ⟨noSuffix, noBinary, noQuestion⟩ :=
    Phrase.endsBefore_assignment (cLanguage gnuC17) isSymbol isAssignment
  have leftReads := (leftReads.cast leftStarts noSuffix).conditional gnu.language noBinary noQuestion
  have rightReads := rightReads.assignment gnu.language rightStarts (by rw [closes]; rfl)
  have whole : ReadsAs Productions.assignment context state (need + 5) stop
      ⟨.assignment operator, spot, .none, [left, right]⟩ :=
    .assign gnu.language isSymbol isAssignment (leftReads.mono (by omega)) rightReads
  exact (whole.expression (by simp [closes])).mono (by omega)

theorem comma (first : ReadsBack left leftWords) (second : ReadsBack right rightWords) :
    ∃ words, ReadsInside ⟨.comma, spot, .none, [left, right]⟩
      (left.expressionText.toList ++ ',' :: ' ' :: right.expressionText.toList) words := by
  refine ⟨_, separated [.comma] (by simp) (by decide) (by decide) (fun scans => .comma scans) first
    second ?_⟩
  intro context state need place stop gnu hasComma closes start forward leftStarts leftReads
    rightStarts rightReads
  have isComma : (context.tokens.get place).kind = .punctuator .comma :=
    congrArg Word.kind hasComma.1
  have leftReads := leftReads.assignment gnu.language leftStarts (by rw [isComma]; rfl)
  have rightReads := rightReads.assignment gnu.language rightStarts (by rw [closes]; rfl)
  have whole : ReadsAs Productions.expression context state (need + 4) stop
      ⟨.comma, spot, .none, [left, right]⟩ :=
    .comma isComma leftReads rightReads (by simp [closes]) forward
  exact whole.mono (by omega)

theorem scans_shortChoice {text next : List Char} {words : List Word}
    (scans : ScansAs gnuC17 text words next) :
    ScansAs gnuC17 (' ' :: '?' :: ':' :: ' ' :: text)
      (Word.operator .question "?" :: Word.punctuator .colon ":" :: words) next := by
  have question : (TokenKind.operator .question, "?") ∈ cSymbolKinds := by decide
  have colon : (TokenKind.punctuator .colon, ":") ∈ cSymbolKinds := by decide
  exact .space (.mark question (by decide) (by decide) (.spacedSymbol colon scans))

theorem binaryConditional (first : ReadsBack left leftWords) (second : ReadsBack right rightWords) :
    ∃ words, ReadsInside ⟨.binaryConditional, spot, .none, [left, right]⟩
      (left.expressionText.toList ++ ' ' :: '?' :: ':' :: ' ' :: right.expressionText.toList)
      words := by
  refine ⟨_, separated [.operator .question "?", .punctuator .colon ":"] (by simp) (by decide)
    (by decide) (fun scans => scans_shortChoice scans) first second ?_⟩
  intro context state need place stop gnu hasMarks closes start forward leftStarts leftReads
    rightStarts rightReads
  have asks : (context.tokens.get place).kind = .operator .question :=
    congrArg Word.kind hasMarks.1
  have divides : (context.tokens.get (place + 1)).kind = .punctuator .colon :=
    congrArg Word.kind hasMarks.2.1
  have leftReads := leftReads.cast leftStarts (by rw [asks]; rfl)
  have rightReads := rightReads.conditional gnu.language rightStarts (by rw [closes]; rfl)
  have whole : ReadsAs Productions.conditional context state (need + 4) stop
      ⟨.binaryConditional, spot, .none, [left, right]⟩ :=
    .shortChoice gnu.language gnu.gnu asks divides (leftReads.mono (by omega)) rightReads
  exact (whole.inParens closes).mono (by omega)

theorem scans_question {text next : List Char} {words : List Word}
    (scans : ScansAs gnuC17 text words next) :
    ScansAs gnuC17 (' ' :: '?' :: ' ' :: text) (Word.operator .question "?" :: words) next := by
  have question : (TokenKind.operator .question, "?") ∈ cSymbolKinds := by decide
  exact .space (.spacedSymbol question scans)

theorem scans_colon {text next : List Char} {words : List Word}
    (scans : ScansAs gnuC17 text words next) :
    ScansAs gnuC17 (' ' :: ':' :: ' ' :: text) (Word.punctuator .colon ":" :: words) next := by
  have colon : (TokenKind.punctuator .colon, ":") ∈ cSymbolKinds := by decide
  exact .space (.spacedSymbol colon scans)

theorem conditional {condition value otherwise : Node}
    {conditionWords valueWords otherWords : List Word}
    (first : ReadsBack condition conditionWords) (second : ReadsBack value valueWords)
    (third : ReadsBack otherwise otherWords) :
    ReadsInside ⟨.conditional, spot, .none, [condition, value, otherwise]⟩
      (condition.expressionText.toList ++ ' ' :: '?' :: ' ' :: (value.expressionText.toList ++
        ' ' :: ':' :: ' ' :: otherwise.expressionText.toList))
      (conditionWords ++ .operator .question "?" ::
        (valueWords ++ .punctuator .colon ":" :: otherWords)) := by
  refine ⟨?_, ?_, ?_⟩
  · intro later
    have scansOther := third.scansInside later (by decide : _ ∧ ')' ≠ '"' ∧ ')' ≠ '\'') (by decide)
    have scansValue := (second.scansInside _ (by decide) (by decide)).append (scans_colon scansOther)
    exact (first.scansInside _ (by decide) (by decide)).append (scans_question scansValue)
  · intro context state gnu plain has
    rw [TokenStream.hasWordsAt_append] at has
    exact (first.starts gnu plain has.1).inside
  · intro context state gnu plain has closes
    rw [TokenStream.hasWordsAt_append, TokenStream.hasWordsAt_cons, TokenStream.hasWordsAt_append,
      TokenStream.hasWordsAt_cons] at has
    obtain ⟨hasCondition, isQuestion, hasValue, isColon, hasOther⟩ := has
    have asks : (context.tokens.get (state.position + conditionWords.length)).kind =
      .operator .question := congrArg Word.kind isQuestion
    have divides : (context.tokens.get
      (state.position + conditionWords.length + 1 + valueWords.length)).kind =
      .punctuator .colon := congrArg Word.kind isColon
    rw [length_append_cons, length_append_cons] at closes ⊢
    have lower (child : Node) (isChild : child ∈ [condition, value, otherwise]) :
        child.height + 1 ≤ Node.height ⟨.conditional, spot, .none, [condition, value, otherwise]⟩ :=
      Node.height_child isChild
    have lowerCondition := lower condition (by simp)
    have lowerValue := lower value (by simp)
    have lowerOther := lower otherwise (by simp)
    obtain ⟨need, higher⟩ : ∃ need,
        Node.height ⟨.conditional, spot, .none, [condition, value, otherwise]⟩ = need + 1 :=
      ⟨Node.height ⟨.conditional, spot, .none, [condition, value, otherwise]⟩ - 1, by omega⟩
    have plainValue := plain.movedTo (state.position + conditionWords.length + 1)
    have plainOther := plain.movedTo
      (state.position + conditionWords.length + 1 + valueWords.length + 1)
    -- Each operand is read as far as the grammar has it: a cast, an expression, and a conditional
    -- expression again.
    have readsCondition := (first.reads gnu plain hasCondition).cast
      (first.starts gnu plain hasCondition) (by rw [asks]; rfl)
    have readsValue := (second.reads gnu plainValue hasValue).expression gnu.language
      (second.starts gnu plainValue hasValue)
      (by rw [ParseState.position_movedTo, divides]; rfl)
      (by simp [divides])
    have readsOther := (third.reads gnu plainOther hasOther).conditional gnu.language
      (third.starts gnu plainOther hasOther)
      (by rw [ParseState.position_movedTo, closes]; rfl)
    have whole : ReadsAs Productions.conditional context state (6 * need + 4 + 4 + 1) _
        ⟨.conditional, spot, .none, [condition, value, otherwise]⟩ :=
      .choice gnu.language asks divides (readsCondition.mono (by omega))
        (second.starts gnu plainValue hasValue) (readsValue.mono (by omega))
        (readsOther.mono (by omega))
    exact (whole.inParens closes).mono (by omega)

/-! ### One operand -/

/-- What a kind that is no punctuator and begins no type cannot be in front of an operand. -/
theorem noType_before_operand {kind : TokenKind} {context : ParseContext} (state : ParseState)
    (isPrefix : (∃ operator, kind = .operator operator) ∨
      ∃ word, kind = .keyword word ∧ word.beginsType = false)
    (isKind : (context.tokens.get state.position).kind = kind) :
    (Productions.beginsTypeName context state (context.tokens.get state.position) = false ∧
      (context.tokens.get state.position).kind ≠ .punctuator .openBrace) ∧
    Parse.atParenthesizedType context state = .ok false state := by
  rw [Productions.atParenthesizedType_apply]
  rcases isPrefix with ⟨operator, rfl⟩ | ⟨word, rfl, noType⟩
  · simp [Productions.beginsTypeName, isKind]
  · simp [Productions.beginsTypeName, isKind, noType]

theorem prefixed {kind : NodeKind} {operand : Node} {words : List Word} {text : List Char}
    (word : Word)
    (isPrefix : (∃ operator, word.kind = .operator operator) ∨
      ∃ keyword, word.kind = .keyword keyword ∧ keyword.beginsType = false)
    (scans : ∀ later, ScansAs gnuC17 operand.expressionText.toList words (')' :: later) →
      ScansAs gnuC17 text (word :: words) (')' :: later))
    (inside : ReadsBack operand words)
    (reads : ∀ {context : ParseContext} {state : ParseState} {need stop : Nat},
      (context.tokens.get state.position).kind = word.kind →
      StartsOperand context (state.movedTo (state.position + 1)) →
      ReadsAs Productions.unary context (state.movedTo (state.position + 1)) need stop operand →
      ReadsAs Productions.unary context state (need + 2) stop ⟨kind, spot, .none, [operand]⟩) :
    ReadsInside ⟨kind, spot, .none, [operand]⟩ text (word :: words) := by
  refine ⟨?_, ?_, ?_⟩
  · intro later
    exact scans later (inside.scansInside later (by decide) (by decide))
  · intro context state _ _ has
    exact (noType_before_operand state isPrefix (congrArg Word.kind has.1)).1
  · intro context state gnu plain has closes
    have isWord : (context.tokens.get state.position).kind = word.kind := congrArg Word.kind has.1
    have stop : state.position + (word :: words).length = state.position + 1 + words.length := by
      simp only [List.length_cons]
      omega
    rw [stop] at closes ⊢
    have lower : operand.height + 1 ≤ Node.height ⟨kind, spot, .none, [operand]⟩ :=
      Node.height_child (by simp)
    have plainOperand := plain.movedTo (state.position + 1)
    have operandStarts := inside.starts gnu plainOperand has.2
    have ends : (context.tokens.get (state.position + 1 + words.length)).kind.endsExpression =
        true := by rw [closes]; rfl
    have operandReads := (inside.reads gnu plainOperand has.2).unary operandStarts
      (TokenKind.extendsOperand_of_endsExpression ends)
    have noType := (noType_before_operand state isPrefix isWord).2
    have whole := ((reads isWord operandStarts operandReads).cast noType).conditional gnu.language
      (TokenKind.binaryBelow_of_endsExpression ends 3)
      (TokenKind.notOperator_of_endsExpression ends .question)
    exact (whole.inParens closes).mono (by omega)

theorem exists_prefixOperator {unary : UnaryOperator} (isBefore : unary.isWrittenAfter = false) :
    ∃ operator, (operator, unary) ∈ Phrase.prefixOperators ∧
      (TokenKind.operator operator, unary.spelling) ∈ cSymbolKinds := by
  cases unary with
  | stepUp => exact ⟨.increment, by simp [Phrase.prefixOperators], by decide⟩
  | stepDown => exact ⟨.decrement, by simp [Phrase.prefixOperators], by decide⟩
  | plus => exact ⟨.plus, by simp [Phrase.prefixOperators], by decide⟩
  | minus => exact ⟨.minus, by simp [Phrase.prefixOperators], by decide⟩
  | logicalNot => exact ⟨.bang, by simp [Phrase.prefixOperators], by decide⟩
  | bitNot => exact ⟨.tilde, by simp [Phrase.prefixOperators], by decide⟩
  | dereference => exact ⟨.star, by simp [Phrase.prefixOperators], by decide⟩
  | addressOf => exact ⟨.ampersand, by simp [Phrase.prefixOperators], by decide⟩
  | laterStepUp => cases isBefore
  | laterStepDown => cases isBefore

theorem unary_notPoint (unary : UnaryOperator) : unary.spelling ≠ "." := by
  cases unary <;> decide

theorem unaryBefore {unary : UnaryOperator} {operand : Node} {words : List Word}
    (isBefore : unary.isWrittenAfter = false) (inside : ReadsBack operand words) :
    ∃ words, ReadsInside ⟨.unary unary, spot, .none, [operand]⟩
      (unary.spelling.toList ++ operand.expressionText.toList) words := by
  obtain ⟨operator, isUnary, known⟩ := exists_prefixOperator isBefore
  refine ⟨_, prefixed ⟨.operator operator, unary.spelling, none⟩ (.inl ⟨operator, rfl⟩) ?_ inside
    ?_⟩
  · intro later scans
    exact .symbolThen known (.operand (mem_cSymbols known) (unary_notPoint unary)
      (inside.begins.append _)) scans
  · intro context state need stop isSymbol starts reads
    exact .applied isSymbol isUnary starts reads

theorem measured {kind ofType : NodeKind} {operand : Node} {words : List Word} (word : Keyword)
    (spelling : String) (isText : isIdentifierText spelling = true)
    (isKeyword : (cLanguage gnuC17).keyword? spelling = some word)
    (noType : word.beginsType = false)
    (isMeasure : ∀ {context : ParseContext} {state : ParseState} (deeper : Productions),
      (context.tokens.get state.position).kind = .keyword word →
        Productions.unaryRule deeper context state =
          Productions.measure deeper kind ofType context state)
    (inside : ReadsBack operand words) :
    ReadsInside ⟨kind, spot, .none, [operand]⟩
      (spelling.toList ++ ' ' :: operand.expressionText.toList)
      (.keyword word spelling :: words) := by
  refine prefixed (.keyword word spelling) (.inr ⟨word, rfl, noType⟩) ?_ inside ?_
  · intro later scans
    exact (ScansAs.keyword isText isKeyword (.cons _ (by decide))).append (.space scans)
  · intro context state need stop isWord starts reads
    exact (ReadsAs.measured isWord (fun deeper => isMeasure deeper isWord) starts reads).mono
      (by omega)

theorem labelAddress {name : String} (isName : IsName gnuC17 name) :
    ReadsInside ⟨.labelAddress, spot, .name name, []⟩ ('&' :: '&' :: name.toList)
      [.operator .logicalAnd "&&", .identifier name] := by
  have known : (TokenKind.operator .logicalAnd, "&&") ∈ cSymbolKinds := by decide
  have isPrefix : (∃ operator, TokenKind.operator .logicalAnd = .operator operator) ∨
      ∃ word, TokenKind.operator .logicalAnd = .keyword word ∧ word.beginsType = false :=
    .inl ⟨.logicalAnd, rfl⟩
  refine ⟨?_, ?_, ?_⟩
  · intro later
    have scansName : ScansAs gnuC17 name.toList [.identifier name] (')' :: later) :=
      .identifier isName.1 isName.2 (.cons _ (by decide))
    have begins := (beginsOperand_word isName.1).append (')' :: later)
    exact .symbolThen known (.operand (mem_cSymbols known) (by decide) begins) scansName
  · intro context state _ _ has
    exact (noType_before_operand state isPrefix (congrArg Word.kind has.1)).1
  · intro context state gnu plain has closes
    obtain ⟨symbolWord, nameWord, _⟩ := has
    have isSymbol : (context.tokens.get state.position).kind = .operator .logicalAnd :=
      congrArg Word.kind symbolWord
    obtain ⟨isIdentifier, rfl, _⟩ := Token.word_eq_mk.mp nameWord
    have ends : (context.tokens.get (state.position + 2)).kind.endsExpression = true := by
      rw [show (context.tokens.get (state.position + 2)).kind = _ from closes]
      rfl
    have noType := (noType_before_operand state isPrefix isSymbol).2
    have reads : ReadsAs Productions.unary context state 1 (state.position + 2)
        ⟨.labelAddress, spot, .name (context.tokens.get (state.position + 1)).lexeme, []⟩ :=
      .labelAddress gnu.gnu isSymbol isIdentifier
    have whole := (reads.cast noType).conditional gnu.language
      (TokenKind.binaryBelow_of_endsExpression ends 3)
      (TokenKind.notOperator_of_endsExpression ends .question)
    exact whole.inParens closes

theorem unaryAfter {unary : UnaryOperator} {operand : Node} {words : List Word}
    (isAfter : unary.isWrittenAfter = true) (inside : ReadsBack operand words) :
    ∃ words, ReadsInside ⟨.unary unary, spot, .none, [operand]⟩
      (operand.expressionText.toList ++ unary.spelling.toList) words := by
  -- There are two of these steps; what is needed of their symbols is the same for both.
  have step : ∃ operator, (operator, unary) ∈
        [(.increment, .laterStepUp), (Operator.decrement, UnaryOperator.laterStepDown)] ∧
      (TokenKind.operator operator, unary.spelling) ∈ cSymbolKinds ∧
      ')' ∉ symbolTails unary.spelling ∧ ∃ head tail, unary.spelling.toList = head :: tail ∧
        ((head == '_' || head.isAlphanum) = false ∧ head ≠ '"' ∧ head ≠ '\'') ∧ head ≠ '.' := by
    cases unary with
    | laterStepUp =>
      exact ⟨.increment, by simp, by decide, by decide, '+', ['+'], rfl, by decide, by decide⟩
    | laterStepDown =>
      exact ⟨.decrement, by simp, by decide, by decide, '-', ['-'], rfl, by decide, by decide⟩
    | _ => cases isAfter
  obtain ⟨operator, isLater, known, noTail, head, tail, characters, ends, notPoint⟩ := step
  refine ⟨words ++ [⟨.operator operator, unary.spelling, none⟩], ?_, ?_, ?_⟩
  · intro later
    have endsSymbol : EndsSymbol unary.spelling (')' :: later) := by
      rintro _ ⟨⟩
      exact ⟨noTail, fun _ => by decide⟩
    have scansSymbol : ScansAs gnuC17 unary.spelling.toList
      [⟨.operator operator, unary.spelling, none⟩] (')' :: later) := .symbol known endsSymbol
    refine ScansAs.append ?_ scansSymbol
    rw [characters]
    exact inside.scansInside _ ends notPoint
  · intro context state gnu plain has
    rw [TokenStream.hasWordsAt_append] at has
    exact (inside.starts gnu plain has.1).inside
  · intro context state gnu plain has closes
    rw [TokenStream.hasWordsAt_append] at has
    obtain ⟨hasOperand, isSymbol, _⟩ := has
    rw [length_append_cons] at closes ⊢
    have lower : operand.height + 1 ≤ Node.height ⟨.unary unary, spot, .none, [operand]⟩ :=
      Node.height_child (by simp)
    have starts := inside.starts gnu plain hasOperand
    have reads : ReadsOperand context state (6 * operand.height + 4)
        (state.position + words.length + 1) ⟨.unary unary, spot, .none, [operand]⟩ :=
      (inside.reads gnu plain hasOperand).laterStep (congrArg Word.kind isSymbol) isLater
    have ends : (context.tokens.get (state.position + words.length + 1)).kind.endsExpression =
        true := by
      rw [show (context.tokens.get (state.position + words.length + 1)).kind = _ from closes]
      rfl
    have whole := reads.conditional gnu.language starts ends
    exact (whole.inParens closes).mono (by omega)

end ReadsInside

/-! ## Suffixes -/

namespace ReadsBack

variable {base index : Node} {words indexWords : List Word} {spot : SourceLocation} {name : String}

theorem suffixed {tree : Node} (head : Char) (tail : List Char) (suffix : List Word)
    (inside : ReadsBack base words) (lower : base.height ≤ tree.height)
    (isText : tree.expressionText.toList = base.expressionText.toList ++ head :: tail)
    (ends : (head == '_' || head.isAlphanum) = false ∧ head ≠ '"' ∧ head ≠ '\'')
    (notPoint : base.isBareInteger = true → head ≠ '.')
    (scans : ∀ next, EndsWord next → ScansAs gnuC17 (head :: tail) suffix next)
    (reads : ∀ {context : ParseContext} {state : ParseState} {place : Nat}, GnuContext context →
      state.IsPlain → context.tokens.HasWordsAt place suffix →
      ReadsOperand context state (6 * tree.height + 4) place base →
      ReadsOperand context state (6 * tree.height + 4) (place + suffix.length) tree) :
    ReadsBack tree (words ++ suffix) := by
  refine ⟨?_, ?_, ?_, ?_⟩
  · rw [isText]
    exact inside.begins.append _
  · intro next endsNext _
    rw [isText]
    have scansBase := inside.scans (head :: tail ++ next) (.cons _ ends)
      (fun isBare => by simpa using notPoint isBare)
    exact scansBase.append (scans next endsNext)
  · intro context state gnu plain has
    rw [TokenStream.hasWordsAt_append] at has
    exact inside.starts gnu plain has.1
  · intro context state gnu plain has
    rw [TokenStream.hasWordsAt_append] at has
    have baseReads : ReadsOperand context state (6 * tree.height + 4) _ base :=
      (inside.reads gnu plain has.1).mono (by omega)
    rw [List.length_append, ← Nat.add_assoc]
    exact reads gnu plain has.2 baseReads

theorem subscript (array : ReadsBack base words) (inside : ReadsBack index indexWords) :
    ∃ words, ReadsBack ⟨.subscript, spot, .none, [base, index]⟩ words := by
  have baseLower : base.height + 1 ≤ Node.height ⟨.subscript, spot, .none, [base, index]⟩ :=
    Node.height_child (by simp)
  have indexLower : index.height + 1 ≤ Node.height ⟨.subscript, spot, .none, [base, index]⟩ :=
    Node.height_child (by simp)
  refine ⟨_, suffixed '[' (index.expressionText.toList ++ [']'])
    (.openBracket :: (indexWords ++ [.closeBracket])) array (by omega)
    (by simp [Node.expressionText_subscript]) (by decide) (by simp) ?_ ?_⟩
  · intro next _
    exact .openBracket ((inside.scansInside next (by decide) (by decide)).append
      (.closeBracket (.nil next)))
  · intro context state place gnu plain has baseReads
    rw [TokenStream.hasWordsAt_cons, TokenStream.hasWordsAt_append,
      TokenStream.hasWordsAt_cons] at has
    obtain ⟨opens, hasIndex, closes, _⟩ := has
    have isOpening : (context.tokens.get place).kind = .punctuator .openBracket :=
      congrArg Word.kind opens
    have isClosing : (context.tokens.get (place + 1 + indexWords.length)).kind =
      .punctuator .closeBracket := congrArg Word.kind closes
    have plainIndex := plain.movedTo (place + 1)
    have indexReads := (inside.reads gnu plainIndex hasIndex).expression gnu.language
      (inside.starts gnu plainIndex hasIndex)
      (by rw [ParseState.position_movedTo, isClosing]; rfl) (by simp [isClosing])
    rw [length_enclosed]
    exact baseReads.subscript isOpening (indexReads.mono (by omega)) isClosing (by omega)

theorem memberNamed {kind : NodeKind} {operator : Operator} (symbol : String) (head : Char)
    (tail : List Char) (characters : symbol.toList = head :: tail) (inside : ReadsBack base words)
    (isName : IsName gnuC17 name)
    (isText : Node.expressionText ⟨kind, spot, .name name, [base]⟩ =
      base.expressionText ++ symbol ++ name)
    (known : (TokenKind.operator operator, symbol) ∈ cSymbolKinds)
    (ends : (head == '_' || head.isAlphanum) = false ∧ head ≠ '"' ∧ head ≠ '\'')
    (notPoint : base.isBareInteger = true → head ≠ '.')
    (endsSymbol : ∀ later, EndsSymbol symbol (name.toList ++ later))
    (reads : ∀ {context : ParseContext} {state : ParseState} {need place : Nat},
      ReadsOperand context state need place base →
      (context.tokens.get place).kind = .operator operator →
      (context.tokens.get (place + 1)).kind = .identifier →
      (context.tokens.get (place + 1)).lexeme = name →
      ReadsOperand context state need (place + 2) ⟨kind, spot, .name name, [base]⟩) :
    ∃ words, ReadsBack ⟨kind, spot, .name name, [base]⟩ words := by
  have lower : base.height + 1 ≤ Node.height ⟨kind, spot, .name name, [base]⟩ :=
    Node.height_child (by simp)
  refine ⟨_, suffixed head (tail ++ name.toList)
    [⟨.operator operator, symbol, none⟩, .identifier name] inside (by omega) ?_ ends notPoint ?_ ?_⟩
  · rw [isText, String.toList_append, String.toList_append, characters, List.append_assoc]
    rfl
  · intro next endsNext
    rw [← List.cons_append, ← characters]
    exact .symbolThen known (endsSymbol next) (.identifier isName.1 isName.2 endsNext)
  · intro context state place _ _ has baseReads
    obtain ⟨symbolWord, nameWord, _⟩ := has
    obtain ⟨isIdentifier, lexeme, _⟩ := Token.word_eq_mk.mp nameWord
    exact reads baseReads (congrArg Word.kind symbolWord) isIdentifier lexeme

theorem arrow (inside : ReadsBack base words) (isName : IsName gnuC17 name) :
    ∃ words, ReadsBack ⟨.arrow, spot, .name name, [base]⟩ words := by
  have known : (TokenKind.operator .arrow, "->") ∈ cSymbolKinds := by decide
  refine memberNamed "->" '-' ['>'] rfl inside isName rfl known (by decide) (by simp) ?_ .arrow
  intro later
  exact .operand (mem_cSymbols known) (by decide) ((beginsOperand_word isName.1).append later)

theorem member (inside : ReadsBack base words) (isName : IsName gnuC17 name)
    (notBare : base.isBareInteger = false) :
    ∃ words, ReadsBack ⟨.member, spot, .name name, [base]⟩ words := by
  have known : (TokenKind.operator .dot, ".") ∈ cSymbolKinds := by decide
  refine memberNamed "." '.' [] rfl inside isName rfl known (by decide) (by simp [notBare]) ?_
    .member
  exact .point_name isName.1

end ReadsBack

/-! ### Arguments -/

/-- The text of several trees with commas between them. -/
structure ReadsBackList (trees : List Node) (words : List Word) : Prop where
  scans : ∀ later, ScansAs gnuC17 (", ".intercalate (trees.map Node.expressionText)).toList words
    (')' :: later)
  starts : ∀ {context : ParseContext} {state : ParseState}, GnuContext context → state.IsPlain →
    context.tokens.HasWordsAt state.position words → StartsOperand context state
  reads : ∀ {context : ParseContext} {state : ParseState} {need : Nat}, GnuContext context →
    state.IsPlain → context.tokens.HasWordsAt state.position words →
    (context.tokens.get (state.position + words.length)).kind = .punctuator .closeParen →
    (∀ tree ∈ trees, 6 * tree.height + 8 ≤ need) →
    ReadsList context state need (state.position + words.length) trees

theorem ReadsBackList.single {tree : Node} {words : List Word} (inside : ReadsBack tree words) :
    ReadsBackList [tree] words := by
  refine ⟨?_, inside.starts, ?_⟩
  · intro later
    rw [List.map_cons, List.map_nil, String.intercalate_singleton]
    exact inside.scansInside later (by decide) (by decide)
  · intro context state need gnu plain has closes lower
    have reads := (inside.reads gnu plain has).assignment gnu.language
      (inside.starts gnu plain has) (by rw [closes]; rfl)
    exact .single (reads.mono (lower tree (by simp))) (by simp [closes])

theorem ReadsBackList.cons {tree next : Node} {trees : List Node} {words more : List Word}
    (inside : ReadsBack tree words) (rest : ReadsBackList (next :: trees) more) :
    ReadsBackList (tree :: next :: trees) (words ++ .comma :: more) := by
  refine ⟨?_, ?_, ?_⟩
  · intro later
    have scansRest := rest.scans later
    rw [List.map_cons] at scansRest
    rw [List.map_cons, List.map_cons, String.intercalate_cons_cons, String.toList_append,
      String.toList_append, List.append_assoc]
    exact (inside.scansInside _ (by decide) (by decide)).append (.comma scansRest)
  · intro context state gnu plain has
    rw [TokenStream.hasWordsAt_append] at has
    exact inside.starts gnu plain has.1
  · intro context state need gnu plain has closes lower
    rw [TokenStream.hasWordsAt_append, TokenStream.hasWordsAt_cons] at has
    obtain ⟨hasFirst, commaWord, hasRest⟩ := has
    rw [length_append_cons] at closes ⊢
    have isComma : (context.tokens.get (state.position + words.length)).kind =
      .punctuator .comma := congrArg Word.kind commaWord
    have reads := (inside.reads gnu plain hasFirst).assignment gnu.language
      (inside.starts gnu plain hasFirst) (by rw [isComma]; rfl)
    have restReads := rest.reads gnu (plain.movedTo (state.position + words.length + 1)) hasRest
      closes (fun other inRest => lower other (by simp [inRest]))
    exact .cons (reads.mono (lower tree (by simp))) isComma (by omega) restReads

theorem ReadsBackList.ofAll {first : Node} {rest : List Node}
    (inside : ∀ tree ∈ first :: rest, ∃ words, ReadsBack tree words) :
    ∃ words, ReadsBackList (first :: rest) words := by
  induction rest generalizing first with
  | nil =>
      obtain ⟨words, reads⟩ := inside first (by simp)
      exact ⟨words, .single reads⟩
  | cons next rest ih =>
      obtain ⟨words, reads⟩ := inside first (by simp)
      obtain ⟨more, readsRest⟩ := ih fun tree inRest => inside tree (List.mem_cons_of_mem _ inRest)
      exact ⟨_, .cons reads readsRest⟩

theorem ReadsBack.call {callee : Node} {arguments : List Node} {words : List Word}
    {spot : SourceLocation} (inside : ReadsBack callee words)
    (readsArguments : ∀ argument ∈ arguments, ∃ words, ReadsBack argument words) :
    ∃ words, ReadsBack ⟨.call, spot, .none, callee :: arguments⟩ words := by
  have lower (child : Node) (isChild : child ∈ callee :: arguments) :
      child.height + 1 ≤ Node.height ⟨.call, spot, .none, callee :: arguments⟩ :=
    Node.height_child isChild
  have calleeLower := lower callee (by simp)
  cases arguments with
  | nil =>
    refine ⟨_, suffixed '(' [')'] [.openParen, .closeParen] inside (by omega)
      (by simp [Node.expressionText_call, Spelling.parenthesized]) (by decide) (by simp) ?_ ?_⟩
    · intro next _
      exact .openParen (.closeParen (.nil next))
    · intro context state place _ _ has baseReads
      obtain ⟨opens, closes, _⟩ := has
      exact baseReads.callNone (congrArg Word.kind opens) (congrArg Word.kind closes)
  | cons first rest =>
    obtain ⟨more, list⟩ := ReadsBackList.ofAll readsArguments
    refine ⟨_, suffixed '('
      ((", ".intercalate ((first :: rest).map Node.expressionText)).toList ++ [')'])
      (.openParen :: (more ++ [.closeParen])) inside (by omega)
      (by simp [Node.expressionText_call, Spelling.parenthesized]) (by decide) (by simp) ?_ ?_⟩
    · intro next _
      exact .openParen ((list.scans next).append (.closeParen (.nil next)))
    · intro context state place gnu plain has baseReads
      rw [TokenStream.hasWordsAt_cons, TokenStream.hasWordsAt_append,
        TokenStream.hasWordsAt_cons] at has
      obtain ⟨opens, hasArguments, closes, _⟩ := has
      have isClosing : (context.tokens.get (place + 1 + more.length)).kind =
        .punctuator .closeParen := congrArg Word.kind closes
      have plainArguments := plain.movedTo (place + 1)
      have starts := list.starts gnu plainArguments hasArguments
      -- An argument does not begin with the parenthesis that would close an empty list.
      have notClosed : (context.tokens.get (place + 1)).kind ≠ .punctuator .closeParen := by
        intro isClosed
        cases starts.punctuator isClosed
      have reads : ReadsList context (state.movedTo (place + 1))
          (6 * Node.height ⟨.call, spot, .none, callee :: first :: rest⟩ + 4)
          (place + 1 + more.length) (first :: rest) := by
        refine list.reads gnu plainArguments hasArguments isClosing ?_
        intro tree isArgument
        have treeLower := lower tree (List.mem_cons_of_mem _ isArgument)
        omega
      rw [length_enclosed]
      exact baseReads.call (congrArg Word.kind opens) notClosed reads isClosing (by omega)

end CFrontEnd
