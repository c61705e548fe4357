import CFrontEnd.Proofs.Expression.Grammar
import CFrontEnd.Proofs.Expression.Reading

/-!
How each form of expression is read if its parts are.
-/

namespace CFrontEnd

open Productions Parse

variable {context : ParseContext} {state : ParseState} {need stop place colon : Nat}
  {tree left right condition value otherwise : Node} {spot : SourceLocation} {dialect : Dialect}

namespace ReadsAs

/-! ## Operators between operands -/

theorem binary (isC : context.language = cLanguage dialect) {operator : Operator}
    {binary : BinaryOperator} {level : Nat}
    (symbol : (context.tokens.get place).kind = .operator operator)
    (isBinary : BinaryOperator.ofOperator? operator = some binary)
    (hasLevel : (cLanguage dialect).precedence? operator = some level)
    (first : ReadsAs Productions.cast context state need place left)
    (second : ReadsAs Productions.cast context (state.movedTo (place + 1)) need stop right)
    (ends : (context.tokens.get stop).kind.endsExpression = true)
    (start : state.position ≤ place) (forward : place < stop) :
    ReadsAs Productions.conditional context state (need + 1) stop
      ⟨.binary binary, spot, .none, [left, right]⟩ := by
  intro levels enough
  obtain ⟨levels, rfl⟩ : ∃ fewer, levels = fewer + 1 := ⟨levels - 1, by omega⟩
  obtain ⟨leftNode, leftSame, leftRead⟩ := first levels (by omega)
  obtain ⟨rightNode, rightSame, rightRead⟩ := second levels (by omega)
  have low := (binary_level isBinary hasLevel).1
  have notEnd : (context.tokens.get place).kind ≠ .endOfFile := by simp [symbol]
  have inside := TokenStream.lt_size_of_kind notEnd
  have noBinary (least : Nat) : (cLanguage dialect).BinaryBelow least (context.tokens.get stop).kind :=
    TokenKind.binaryBelow_of_endsExpression ends least
  -- Levels are enough here, so the second way to agree, a problem, is ruled out.
  have whole : Agrees False .empty (Productions.binary (ofLevels levels) context state)
      (.ok (.ofChildren (.binary binary) (context.tokens.get place).location [leftNode, rightNode])
        (state.movedTo stop)) := by
    have steps : 0 < state.remaining context := by
      simp only [ParseState.remaining, TokenStream.remaining, TokenStream.length]
      omega
    refine (binaryWithin_of_cast steps (.inl leftRead)).trans ?_
    refine (binaryStep_some notEnd (atBinary?_some isC symbol isBinary hasLevel low)
      (.inl (binaryWithin_of_single isC rightRead (noBinary _))) forward).trans ?_
    exact .inl (binaryStep_none (atBinary?_none isC (noBinary _)))
  refine ⟨_, ?_, (conditionalRule_plain whole
    (TokenKind.notOperator_of_endsExpression ends .question)).eq⟩
  simp [Node.ofChildren, Node.sameShape, Node.sameShapes, leftSame, rightSame]

theorem assign (isC : context.language = cLanguage dialect) {operator : Operator}
    {assignment : AssignmentOperator}
    (symbol : (context.tokens.get place).kind = .operator operator)
    (isAssignment : AssignmentOperator.ofOperator? operator = some assignment)
    (first : ReadsAs Productions.conditional context state need place left)
    (second : ReadsAs Productions.assignment context (state.movedTo (place + 1)) need stop right) :
    ReadsAs Productions.assignment context state (need + 1) stop
      ⟨.assignment assignment, spot, .none, [left, right]⟩ := by
  intro levels enough
  obtain ⟨levels, rfl⟩ : ∃ fewer, levels = fewer + 1 := ⟨levels - 1, by omega⟩
  obtain ⟨leftNode, leftSame, leftRead⟩ := first levels (by omega)
  obtain ⟨rightNode, rightSame, rightRead⟩ := second levels (by omega)
  have whole : Agrees False .empty (assignmentRule (ofLevels levels) context state) _ :=
    assignmentRule_assign (.inl leftRead) (by simp [symbol])
      (atAssignment?_some isC symbol isAssignment) (.inl rightRead)
  refine ⟨_, ?_, whole.eq⟩
  simp [Node.ofChildren, Node.sameShape, Node.sameShapes, leftSame, rightSame]

theorem comma (isComma : (context.tokens.get place).kind = .punctuator .comma)
    (first : ReadsAs Productions.assignment context state need place left)
    (second : ReadsAs Productions.assignment context (state.movedTo (place + 1)) need stop right)
    (noComma : (context.tokens.get stop).kind ≠ .punctuator .comma) (forward : place < stop) :
    ReadsAs Productions.expression context state need stop
      ⟨.comma, spot, .none, [left, right]⟩ := by
  intro levels enough
  obtain ⟨leftNode, leftSame, leftRead⟩ := first levels enough
  obtain ⟨rightNode, rightSame, rightRead⟩ := second levels enough
  have whole : Agrees False .empty ((ofLevels levels).expression context state)
      (.ok (.ofChildren .comma (context.tokens.get place).location [leftNode, rightNode])
        (state.movedTo stop)) := by
    refine (expression_of_assignment (.inl leftRead)).trans ?_
    refine (commaStep_some isComma (.inl rightRead) forward).trans ?_
    exact .inl (commaStep_none noComma)
  refine ⟨_, ?_, whole.eq⟩
  simp [Node.ofChildren, Node.sameShape, Node.sameShapes, leftSame, rightSame]

theorem choice (isC : context.language = cLanguage dialect)
    (asks : (context.tokens.get place).kind = .operator .question)
    (divides : (context.tokens.get colon).kind = .punctuator .colon)
    (first : ReadsAs Productions.cast context state need place condition)
    (starts : StartsOperand context (state.movedTo (place + 1)))
    (second : ReadsAs Productions.expression context (state.movedTo (place + 1)) need colon value)
    (third : ReadsAs Productions.conditional context (state.movedTo (colon + 1)) need stop
      otherwise) :
    ReadsAs Productions.conditional context state (need + 1) stop
      ⟨.conditional, spot, .none, [condition, value, otherwise]⟩ := by
  intro levels enough
  obtain ⟨levels, rfl⟩ : ∃ fewer, levels = fewer + 1 := ⟨levels - 1, by omega⟩
  obtain ⟨conditionNode, conditionSame, conditionRead⟩ := first levels (by omega)
  obtain ⟨valueNode, valueSame, valueRead⟩ := second levels (by omega)
  obtain ⟨otherNode, otherSame, otherRead⟩ := third levels (by omega)
  have noBinary : (cLanguage dialect).BinaryBelow 3 (context.tokens.get place).kind :=
    Language.binaryBelow_of_notBinary (by simp [asks, BinaryOperator.ofOperator?])
  have notShort : (context.tokens.get (place + 1)).kind ≠ .punctuator .colon := by
    intro isColon
    cases starts.punctuator isColon
  have whole : Agrees False .empty (conditionalRule (ofLevels levels) context state) _ :=
    conditionalRule_full (.inl (binaryWithin_of_single isC conditionRead noBinary)) asks notShort
      (.inl valueRead) divides (.inl otherRead)
  refine ⟨_, ?_, whole.eq⟩
  simp [Node.ofChildren, Node.sameShape, Node.sameShapes, conditionSame, valueSame, otherSame]

theorem shortChoice (isC : context.language = cLanguage dialect)
    (gnu : context.dialect.gnu = true)
    (asks : (context.tokens.get place).kind = .operator .question)
    (divides : (context.tokens.get (place + 1)).kind = .punctuator .colon)
    (first : ReadsAs Productions.cast context state need place condition)
    (second : ReadsAs Productions.conditional context (state.movedTo (place + 2)) need stop
      otherwise) :
    ReadsAs Productions.conditional context state (need + 1) stop
      ⟨.binaryConditional, spot, .none, [condition, otherwise]⟩ := by
  intro levels enough
  obtain ⟨levels, rfl⟩ : ∃ fewer, levels = fewer + 1 := ⟨levels - 1, by omega⟩
  obtain ⟨conditionNode, conditionSame, conditionRead⟩ := first levels (by omega)
  obtain ⟨otherNode, otherSame, otherRead⟩ := second levels (by omega)
  have noBinary : (cLanguage dialect).BinaryBelow 3 (context.tokens.get place).kind :=
    Language.binaryBelow_of_notBinary (by simp [asks, BinaryOperator.ofOperator?])
  have whole : Agrees False .empty (conditionalRule (ofLevels levels) context state) _ :=
    conditionalRule_short gnu (.inl (binaryWithin_of_single isC conditionRead noBinary)) asks
      divides (.inl otherRead)
  refine ⟨_, ?_, whole.eq⟩
  simp [Node.ofChildren, Node.sameShape, Node.sameShapes, conditionSame, otherSame]

/-! ## Operators in front of an operand -/

theorem applied {operator : Operator} {unary : UnaryOperator}
    (symbol : (context.tokens.get state.position).kind = .operator operator)
    (isUnary : (operator, unary) ∈ Phrase.prefixOperators)
    (starts : StartsOperand context (state.movedTo (state.position + 1)))
    (reads : ReadsAs Productions.unary context (state.movedTo (state.position + 1)) need stop tree) :
    ReadsAs Productions.unary context state (need + 2) stop
      ⟨.unary unary, spot, .none, [tree]⟩ := by
  intro levels enough
  obtain ⟨levels, rfl⟩ : ∃ fewer, levels = fewer + 1 := ⟨levels - 1, by omega⟩
  have notEnd : (context.tokens.get state.position).kind ≠ .endOfFile := by simp [symbol]
  -- Increments go on with a unary expression and signs with a cast; the rest is the same for
  -- both.
  have finish {operand : Parse Node} (same : unaryRule (ofLevels levels) context state =
        Productions.applied unary operand context state)
      (inside : ∃ node, node.sameShape tree = true ∧
        operand context (state.movedTo (state.position + 1)) = .ok node (state.movedTo stop)) :
      ∃ node, node.sameShape ⟨.unary unary, spot, .none, [tree]⟩ = true ∧
        unaryRule (ofLevels levels) context state = .ok node (state.movedTo stop) := by
    obtain ⟨node, nodeSame, read⟩ := inside
    have whole : Agrees False .empty (Productions.applied unary operand context state) _ :=
      applied_agrees notEnd (.inl read)
    refine ⟨_, ?_, same.trans whole.eq⟩
    simp [Node.ofChildren, Node.sameShape, Node.sameShapes, nodeSame]
  have readUnary := reads levels (by omega)
  have readCast := (reads.cast starts.noType) levels (by omega)
  simp only [Phrase.prefixOperators, List.mem_cons, Prod.mk.injEq, List.not_mem_nil,
    or_false] at isUnary
  rcases isUnary with ⟨rfl, rfl⟩ | ⟨rfl, rfl⟩ | isSign
  · exact finish (unaryRule_increment symbol) readUnary
  · exact finish (unaryRule_decrement symbol) readUnary
  · have isCast : castOperator? operator = some unary := by
      rcases isSign with ⟨rfl, rfl⟩ | ⟨rfl, rfl⟩ | ⟨rfl, rfl⟩ | ⟨rfl, rfl⟩ | ⟨rfl, rfl⟩ |
        ⟨rfl, rfl⟩ <;> rfl
    exact finish (unaryRule_castOperator symbol isCast) readCast

theorem labelAddress (gnu : context.dialect.gnu = true)
    (symbol : (context.tokens.get state.position).kind = .operator .logicalAnd)
    (isName : (context.tokens.get (state.position + 1)).kind = .identifier) :
    ReadsAs Productions.unary context state 1 (state.position + 2)
      ⟨.labelAddress, spot, .name (context.tokens.get (state.position + 1)).lexeme, []⟩ := by
  intro levels enough
  obtain ⟨levels, rfl⟩ : ∃ fewer, levels = fewer + 1 := ⟨levels - 1, by omega⟩
  refine ⟨_, ?_, unaryRule_labelAddress gnu symbol isName⟩
  simp [Node.named, Node.leaf, Node.sameShape, Node.sameShapes]

theorem measured {word : Keyword} {ofExpression ofType : NodeKind}
    (isWord : (context.tokens.get state.position).kind = .keyword word)
    (isMeasure : ∀ deeper, unaryRule deeper context state =
      measure deeper ofExpression ofType context state)
    (starts : StartsOperand context (state.movedTo (state.position + 1)))
    (reads : ReadsAs Productions.unary context (state.movedTo (state.position + 1)) need stop tree) :
    ReadsAs Productions.unary context state (need + 1) stop
      ⟨ofExpression, spot, .none, [tree]⟩ := by
  intro levels enough
  obtain ⟨levels, rfl⟩ : ∃ fewer, levels = fewer + 1 := ⟨levels - 1, by omega⟩
  obtain ⟨node, same, read⟩ := reads levels (by omega)
  have whole : Agrees False .empty
      (measure (ofLevels levels) ofExpression ofType context state) _ :=
    measure_agrees (by simp [isWord]) starts.noType (.inl read)
  refine ⟨_, ?_, (isMeasure (ofLevels levels)).trans whole.eq⟩
  simp [Node.ofChildren, Node.sameShape, Node.sameShapes, same]

end ReadsAs

namespace ReadsOperand

/-! ## Primary expressions -/

theorem identifier {name : String}
    (isName : (context.tokens.get state.position).kind = .identifier)
    (lexeme : (context.tokens.get state.position).lexeme = name)
    (noType : context.language.isTypeName state.scopes.isTypedefName name = false) :
    ReadsOperand context state 0 (state.position + 1) ⟨.identifier, spot, .name name, []⟩ := by
  intro levels _
  have read : Agrees False .empty (suffixed (ofLevels levels) context state) _ :=
    suffixed_of_primary (.inl (primary_identifier isName (by rw [lexeme]; exact noType)))
  refine ⟨_, ?_, read.eq⟩
  simp [Node.named, Node.leaf, Node.sameShape, Node.sameShapes, lexeme]

theorem integer {number : Nat} {suffix : IntegerSuffix}
    (isInteger : (context.tokens.get state.position).kind = .literal .integer)
    (isValue : (context.tokens.get state.position).value = some (.integer number suffix)) :
    ReadsOperand context state 0 (state.position + 1)
      ⟨.integerLiteral, spot, .literal (.integer number suffix), []⟩ := by
  intro levels _
  have read : Agrees False .empty (suffixed (ofLevels levels) context state) _ :=
    suffixed_of_primary (.inl (primary_integer isInteger))
  have same : (context.tokens.get state.position).literalOf .integer = .integer number suffix :=
    Token.literalOf_eq isValue rfl
  refine ⟨_, ?_, read.eq⟩
  simp [Node.leaf, Node.sameShape, Node.sameShapes, same]

theorem parenthesized
    (opens : (context.tokens.get state.position).kind = .punctuator .openParen)
    (noBlock : (context.tokens.get (state.position + 1)).kind ≠ .punctuator .openBrace)
    (inside : ReadsAs Productions.expression context (state.movedTo (state.position + 1)) need stop
      tree)
    (closes : (context.tokens.get stop).kind = .punctuator .closeParen) :
    ReadsOperand context state need (stop + 1) tree := by
  intro levels enough
  obtain ⟨node, same, read⟩ := inside levels enough
  have whole : Agrees False .empty (suffixed (ofLevels levels) context state) _ :=
    suffixed_of_primary (primary_parenthesized opens noBlock (.inl read) closes)
  exact ⟨node, same, whole.eq⟩

/-! ## Suffixes -/

theorem subscript (base : ReadsOperand context state need place left)
    (opens : (context.tokens.get place).kind = .punctuator .openBracket)
    (inside : ReadsAs Productions.expression context (state.movedTo (place + 1)) need stop right)
    (closes : (context.tokens.get stop).kind = .punctuator .closeBracket)
    (forward : place < stop) :
    ReadsOperand context state need (stop + 1) ⟨.subscript, spot, .none, [left, right]⟩ := by
  intro levels enough
  obtain ⟨baseNode, baseSame, baseRead⟩ := base levels enough
  obtain ⟨indexNode, indexSame, indexRead⟩ := inside levels enough
  have longer : Agrees False .empty
      (repeatFrom (addSuffix (ofLevels levels)) baseNode context (state.movedTo place)) _ :=
    addSuffix_subscript opens (.inl indexRead) closes forward
  refine ⟨_, ?_, baseRead.trans longer.eq⟩
  simp [Node.ofChildren, Node.sameShape, Node.sameShapes, baseSame, indexSame]

theorem member {name : String} (base : ReadsOperand context state need place left)
    (point : (context.tokens.get place).kind = .operator .dot)
    (isName : (context.tokens.get (place + 1)).kind = .identifier)
    (lexeme : (context.tokens.get (place + 1)).lexeme = name) :
    ReadsOperand context state need (place + 2) ⟨.member, spot, .name name, [left]⟩ := by
  intro levels enough
  obtain ⟨baseNode, baseSame, baseRead⟩ := base levels enough
  refine ⟨_, ?_, baseRead.trans (addSuffix_member point isName)⟩
  simp [Node.sameShape, Node.sameShapes, baseSame, lexeme]

theorem arrow {name : String} (base : ReadsOperand context state need place left)
    (arrow : (context.tokens.get place).kind = .operator .arrow)
    (isName : (context.tokens.get (place + 1)).kind = .identifier)
    (lexeme : (context.tokens.get (place + 1)).lexeme = name) :
    ReadsOperand context state need (place + 2) ⟨.arrow, spot, .name name, [left]⟩ := by
  intro levels enough
  obtain ⟨baseNode, baseSame, baseRead⟩ := base levels enough
  refine ⟨_, ?_, baseRead.trans (addSuffix_arrow arrow isName)⟩
  simp [Node.sameShape, Node.sameShapes, baseSame, lexeme]

theorem laterStep {operator : Operator} {unary : UnaryOperator}
    (base : ReadsOperand context state need place left)
    (symbol : (context.tokens.get place).kind = .operator operator)
    (isLater : (operator, unary) ∈
      [(.increment, .laterStepUp), (Operator.decrement, UnaryOperator.laterStepDown)]) :
    ReadsOperand context state need (place + 1) ⟨.unary unary, spot, .none, [left]⟩ := by
  intro levels enough
  obtain ⟨baseNode, baseSame, baseRead⟩ := base levels enough
  simp only [List.mem_cons, Prod.mk.injEq, List.not_mem_nil, or_false] at isLater
  rcases isLater with ⟨rfl, rfl⟩ | ⟨rfl, rfl⟩
  · refine ⟨_, ?_, baseRead.trans (addSuffix_stepUp symbol)⟩
    simp [Node.ofChildren, Node.sameShape, Node.sameShapes, baseSame]
  · refine ⟨_, ?_, baseRead.trans (addSuffix_stepDown symbol)⟩
    simp [Node.ofChildren, Node.sameShape, Node.sameShapes, baseSame]

end ReadsOperand

/-! ## Arguments -/

/-- The rest of a list of arguments is read, behind those that have been. -/
def ReadsList (context : ParseContext) (state : ParseState) (need stop : Nat) (trees : List Node) :
    Prop :=
  ∀ levels, need ≤ levels → ∀ before : Array Node, ∃ nodes : List Node,
    Node.sameShapes nodes trees = true ∧
      listAfter (ofLevels levels).assignment before context state =
        .ok (before ++ nodes.toArray) (state.movedTo stop)

namespace ReadsList

theorem single (reads : ReadsAs Productions.assignment context state need stop tree)
    (noComma : (context.tokens.get stop).kind ≠ .punctuator .comma) :
    ReadsList context state need stop [tree] := by
  intro levels enough before
  obtain ⟨node, same, read⟩ := reads levels enough
  refine ⟨[node], ?_, ?_⟩
  · simp [Node.sameShapes, same]
  · rw [listAfter_last read noComma]
    simp

theorem cons {trees : List Node} (reads : ReadsAs Productions.assignment context state need place tree)
    (isComma : (context.tokens.get place).kind = .punctuator .comma)
    (start : state.position ≤ place)
    (rest : ReadsList context (state.movedTo (place + 1)) need stop trees) :
    ReadsList context state need stop (tree :: trees) := by
  intro levels enough before
  obtain ⟨node, same, read⟩ := reads levels enough
  obtain ⟨nodes, restSame, restRead⟩ := rest levels enough (before.push node)
  refine ⟨node :: nodes, ?_, ?_⟩
  · simp [Node.sameShapes, same, restSame]
  · rw [listAfter_comma read isComma start, restRead]
    simp

end ReadsList

namespace ReadsOperand

theorem callNone (base : ReadsOperand context state need place left)
    (opens : (context.tokens.get place).kind = .punctuator .openParen)
    (closes : (context.tokens.get (place + 1)).kind = .punctuator .closeParen) :
    ReadsOperand context state need (place + 2) ⟨.call, spot, .none, [left]⟩ := by
  intro levels enough
  obtain ⟨baseNode, baseSame, baseRead⟩ := base levels enough
  have longer : Agrees False .empty
      (repeatFrom (addSuffix (ofLevels levels)) baseNode context (state.movedTo place)) _ :=
    addSuffix_call opens (.inl (callArguments_none closes)) closes (Nat.lt_succ_self place)
  refine ⟨_, ?_, baseRead.trans longer.eq⟩
  simp [Node.ofChildren, Node.sameShape, Node.sameShapes, baseSame]

theorem call {trees : List Node} (base : ReadsOperand context state need place left)
    (opens : (context.tokens.get place).kind = .punctuator .openParen)
    (notClosed : (context.tokens.get (place + 1)).kind ≠ .punctuator .closeParen)
    (inside : ReadsList context (state.movedTo (place + 1)) need stop trees)
    (closes : (context.tokens.get stop).kind = .punctuator .closeParen)
    (forward : place < stop) :
    ReadsOperand context state need (stop + 1) ⟨.call, spot, .none, left :: trees⟩ := by
  intro levels enough
  obtain ⟨baseNode, baseSame, baseRead⟩ := base levels enough
  obtain ⟨nodes, same, read⟩ := inside levels enough #[]
  rw [← callArguments_some notClosed] at read
  have longer : Agrees False .empty
      (repeatFrom (addSuffix (ofLevels levels)) baseNode context (state.movedTo place)) _ :=
    addSuffix_call opens (.inl read) closes forward
  refine ⟨_, ?_, baseRead.trans longer.eq⟩
  simp [Node.ofChildren, Node.sameShape, Node.sameShapes, baseSame, same]

end ReadsOperand

end CFrontEnd
