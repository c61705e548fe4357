import CFrontEnd.Proofs.Expression.Grammar
import CFrontEnd.Proofs.Grammar.Operators
import CFrontEnd.Proofs.Grammar.Words

/-!
What the grammar of operator expressions derives, the productions read, unless it nests too deeply.
A phrase is read to its end only if the token behind it does not make a longer phrase of it, and
where the grammar recurs on the left the production is a loop: a phrase is then what the loop has
read when it comes to the token behind it.
-/

namespace CFrontEnd

/-- Whether a token of this kind behind a phrase does not make a longer phrase of that sort. -/
def Phrase.EndsBefore (language : Language) : Phrase → TokenKind → Prop
  | .primary, _ | .suffixed, _ => True
  | .unary, kind => kind.extendsOperand = false
  | .binary level, kind => kind.extendsOperand = false ∧ language.BinaryBelow (level + 1) kind
  | .conditional, kind =>
    kind.extendsOperand = false ∧ language.BinaryBelow 3 kind ∧ kind ≠ .operator .question
  | .assignment, kind | .expression, kind =>
    kind.extendsOperand = false ∧ language.BinaryBelow 3 kind ∧ kind ≠ .operator .question ∧
      ∀ operator, kind = .operator operator → AssignmentOperator.ofOperator? operator = none

open Productions

/-- How the production for the phrase runs on its tokens, with any number of levels left. -/
def Completes (context : ParseContext) (phrase : Phrase) (tokens : List Token) (tree : Node) :
    Prop :=
  ∀ (levels : Nat) (state : ParseState), state.IsPlain →
    context.tokens.HasAt state.position tokens →
    phrase.EndsBefore context.language
      (context.tokens.get (state.position + tokens.length)).kind →
    match phrase with
    | .expression =>
      Agrees True state.diagnostics ((ofLevels levels).expression context state)
        (Parse.repeatFrom (commaStep (ofLevels levels)) tree context
          (state.movedTo (state.position + tokens.length)))
    | .assignment =>
      Agrees True state.diagnostics ((ofLevels levels).assignment context state)
        (.ok tree (state.movedTo (state.position + tokens.length)))
    | .conditional =>
      Agrees True state.diagnostics ((ofLevels levels).conditional context state)
        (.ok tree (state.movedTo (state.position + tokens.length)))
    | .binary level =>
      ∀ steps least, least ≤ level → tokens.length ≤ steps →
        Agrees True state.diagnostics
          (binaryWithin (ofLevels levels) steps least context state)
          (Parse.repeatFrom (binaryStep (ofLevels levels) (steps - 1) least) tree context
            (state.movedTo (state.position + tokens.length)))
    | .unary =>
      Agrees True state.diagnostics ((ofLevels levels).unary context state)
        (.ok tree (state.movedTo (state.position + tokens.length)))
    | .suffixed =>
      Agrees True state.diagnostics (Productions.suffixed (ofLevels levels) context state)
        (Parse.repeatFrom (addSuffix (ofLevels levels)) tree context
          (state.movedTo (state.position + tokens.length)))
    | .primary =>
      Agrees True state.diagnostics (Productions.primary (ofLevels levels) context state)
        (.ok tree (state.movedTo (state.position + tokens.length)))

theorem Phrase.endsBefore_end {language : Language} {kind : TokenKind} (phrase : Phrase)
    (same : kind = .endOfFile) : phrase.EndsBefore language kind := by
  subst same
  cases phrase <;> simp [EndsBefore, Language.BinaryBelow, TokenKind.extendsOperand]

theorem Phrase.endsBefore_punctuator (language : Language) {kind : TokenKind}
    {punctuator : Punctuator} (phrase : Phrase) (same : kind = .punctuator punctuator)
    (notSuffix : kind.extendsOperand = false) : phrase.EndsBefore language kind := by
  subst same
  cases phrase <;> simp [EndsBefore, Language.BinaryBelow, notSuffix]

theorem Phrase.endsBefore_assignment (language : Language) {kind : TokenKind}
    {operator : Operator} {assignment : AssignmentOperator} (same : kind = .operator operator)
    (isAssignment : AssignmentOperator.ofOperator? operator = some assignment) :
    Phrase.conditional.EndsBefore language kind := by
  subst same
  have notBinary : BinaryOperator.ofOperator? operator = none := by
    cases operator <;> simp_all [AssignmentOperator.ofOperator?, BinaryOperator.ofOperator?]
  refine ⟨?_, Language.binaryBelow_of_notBinary (by simp [notBinary]), ?_⟩ <;>
    cases operator <;> simp_all [AssignmentOperator.ofOperator?, TokenKind.extendsOperand]

theorem Phrase.endsBefore_binary {language : Language} {kind : TokenKind} {operator : Operator}
    {binary : BinaryOperator} {level : Nat} (same : kind = .operator operator)
    (isBinary : BinaryOperator.ofOperator? operator = some binary)
    (hasLevel : language.precedence? operator = some level) :
    (Phrase.binary level).EndsBefore language kind := by
  subst same
  refine ⟨?_, ?_⟩
  · cases operator <;> simp_all [BinaryOperator.ofOperator?, TokenKind.extendsOperand]
  · intro other _ otherLevel same _ otherHasLevel
    obtain rfl := TokenKind.operator.inj same
    rw [hasLevel] at otherHasLevel
    have levelEq := Option.some.inj otherHasLevel
    omega

namespace Completes

variable {context : ParseContext} {tokens left right : List Token} {token : Token}
  {tree first second : Node}

/-- An expression in front of a closing token is read whole. -/
theorem expression_whole {punctuator : Punctuator}
    (inside : Completes context .expression tokens tree) (levels : Nat) (state : ParseState)
    (plain : state.IsPlain) (has : context.tokens.HasAt state.position tokens)
    (closes : (context.tokens.get (state.position + tokens.length)).kind = .punctuator punctuator)
    (noSuffix : (TokenKind.punctuator punctuator).extendsOperand = false)
    (noComma : punctuator ≠ .comma) :
    Agrees True state.diagnostics ((ofLevels levels).expression context state)
      (.ok tree (state.movedTo (state.position + tokens.length))) := by
  have ends := Phrase.endsBefore_punctuator context.language .expression closes
    (by rw [closes]; exact noSuffix)
  refine (inside levels state plain has ends).trans (.inl ?_)
  exact commaStep_none (by simp [closes, noComma])

/-- Operands with operators between them are read whole in front of what is no binary operator. -/
theorem binary_whole (operators : OperatorContext context)
    (inside : Completes context (.binary 3) tokens tree) (levels : Nat) (state : ParseState)
    (plain : state.IsPlain) (has : context.tokens.HasAt state.position tokens)
    (noSuffix : (context.tokens.get
      (state.position + tokens.length)).kind.extendsOperand = false)
    (below : context.language.BinaryBelow 3
      (context.tokens.get (state.position + tokens.length)).kind) :
    Agrees True state.diagnostics (Productions.binary (ofLevels levels) context state)
      (.ok tree (state.movedTo (state.position + tokens.length))) := by
  have enough : tokens.length ≤ state.remaining context := by
    have bound := has.length_le
    simp only [ParseState.remaining, TokenStream.remaining, TokenStream.length]
    omega
  refine (inside levels state plain has ⟨noSuffix, below.mono (by omega)⟩
    (state.remaining context) 3 (by omega) enough).trans (.inl ?_)
  rw [operators.language] at below
  exact binaryStep_none (atBinary?_none operators.language below)

theorem single (inside : Completes context .assignment tokens tree) :
    Completes context .expression tokens tree := by
  intro levels state plain has ends
  exact expression_of_assignment (inside levels state plain has ends)

theorem comma (before : Completes context .expression left first)
    (isComma : token.kind = .punctuator .comma)
    (behind : Completes context .assignment right second) :
    Completes context .expression (left ++ token :: right)
      (.ofChildren .comma token.location [first, second]) := by
  intro levels state plain has ends
  rw [length_append_cons] at ends ⊢
  obtain ⟨hasLeft, _, rfl, hasRight⟩ := (TokenStream.hasAt_append _ _ _).mp has
  have endsLeft := Phrase.endsBefore_punctuator context.language .expression isComma
    (by simp [isComma, TokenKind.extendsOperand])
  refine (before levels state plain hasLeft endsLeft).trans ?_
  exact commaStep_some isComma (behind levels _ (plain.movedTo _) hasRight ends) (by simp; omega)

theorem value (inside : Completes context .conditional tokens tree) :
    Completes context .assignment tokens tree := by
  intro levels state plain has ends
  cases levels with
  | zero => exact Agrees.tooDeep trivial plain.calm _
  | succ levels =>
      have endsInside : Phrase.EndsBefore context.language .conditional _ :=
        ⟨ends.1, ends.2.1, ends.2.2.1⟩
      exact assignmentRule_plain (inside levels state plain has endsInside)
        (atAssignment?_none ends.2.2.2)

theorem assign (operators : OperatorContext context) {operator : Operator}
    {assignment : AssignmentOperator} (before : Completes context .conditional left first)
    (symbol : token.kind = .operator operator)
    (isAssignment : AssignmentOperator.ofOperator? operator = some assignment)
    (behind : Completes context .assignment right second) :
    Completes context .assignment (left ++ token :: right)
      (.ofChildren (.assignment assignment) token.location [first, second]) := by
  intro levels state plain has ends
  cases levels with
  | zero => exact Agrees.tooDeep trivial plain.calm _
  | succ levels =>
      rw [length_append_cons] at ends ⊢
      obtain ⟨hasLeft, _, rfl, hasRight⟩ := (TokenStream.hasAt_append _ _ _).mp has
      have endsLeft := Phrase.endsBefore_assignment context.language symbol
        isAssignment
      exact assignmentRule_assign (before levels state plain hasLeft endsLeft)
        (by simp [symbol]) (atAssignment?_some operators.language symbol isAssignment)
        (behind levels _ (plain.movedTo _) hasRight ends)

theorem plain (operators : OperatorContext context)
    (inside : Completes context (.binary 3) tokens tree) :
    Completes context .conditional tokens tree := by
  intro levels state plain has ends
  cases levels with
  | zero => exact Agrees.tooDeep trivial plain.calm _
  | succ levels =>
      obtain ⟨noSuffix, below, noQuestion⟩ := ends
      exact conditionalRule_plain
        (inside.binary_whole operators levels state plain has noSuffix below) noQuestion

theorem choice (operators : OperatorContext context) {test taken rest : List Token}
    {question colon : Token} {condition value otherwise : Node}
    (before : Completes context (.binary 3) test condition)
    (asks : question.kind = .operator .question)
    (between : Completes context .expression taken value)
    (divides : colon.kind = .punctuator .colon)
    (takenBegins : ∃ token rest, taken = token :: rest ∧
      ∀ punctuator, token.kind = .punctuator punctuator → punctuator = .openParen)
    (behind : Completes context .conditional rest otherwise) :
    Completes context .conditional (test ++ question :: (taken ++ colon :: rest))
      (.ofChildren .conditional question.location [condition, value, otherwise]) := by
  intro levels state plain has ends
  cases levels with
  | zero => exact Agrees.tooDeep trivial plain.calm _
  | succ levels =>
      rw [length_append_cons, length_append_cons] at ends ⊢
      obtain ⟨hasTest, _, rfl, hasLater⟩ := (TokenStream.hasAt_append _ _ _).mp has
      obtain ⟨hasTaken, _, rfl, hasRest⟩ := (TokenStream.hasAt_append _ _ _).mp hasLater
      obtain ⟨token, _, rfl, opens⟩ := takenBegins
      -- A colon right behind the question mark would be the form without a middle operand, which
      -- no phrase begins with.
      have notColon : token.kind ≠ .punctuator .colon := by
        intro isColon
        simpa using opens _ isColon
      refine conditionalRule_full
        (before.binary_whole operators levels state plain hasTest
          (by simp [asks, TokenKind.extendsOperand])
          (Language.binaryBelow_of_notBinary (by simp [asks, BinaryOperator.ofOperator?])))
        asks (by rw [hasTaken.2.1]; exact notColon)
        (between.expression_whole levels _ (plain.movedTo _) hasTaken divides
          (by simp [TokenKind.extendsOperand]) (by simp)) divides
        (behind levels _ (plain.movedTo _) hasRest ends)

theorem tighter {level : Nat} (inside : Completes context (.binary (level + 1)) tokens tree) :
    Completes context (.binary level) tokens tree := by
  intro levels state plain has ends steps least leastLe enough
  exact inside levels state plain has ⟨ends.1, ends.2.mono (by omega)⟩ steps least (by omega) enough

theorem operated (operators : OperatorContext context) {level : Nat} {operator : Operator}
    {binary : BinaryOperator} (before : Completes context (.binary level) left first)
    (symbol : token.kind = .operator operator)
    (hasLevel : context.language.precedence? operator = some level)
    (isBinary : BinaryOperator.ofOperator? operator = some binary)
    (behind : Completes context (.binary (level + 1)) right second) :
    Completes context (.binary level) (left ++ token :: right)
      (.ofChildren (.binary binary) token.location [first, second]) := by
  intro levels state plain has ends steps least leastLe enough
  rw [length_append_cons] at ends ⊢
  obtain ⟨hasLeft, _, rfl, hasRight⟩ := (TokenStream.hasAt_append _ _ _).mp has
  simp only [List.length_append, List.length_cons] at enough
  have endsLeft : (Phrase.binary level).EndsBefore context.language _ :=
    Phrase.endsBefore_binary symbol isBinary hasLevel
  have endsRight : (Phrase.binary (level + 1)).EndsBefore context.language _ :=
    ⟨ends.1, ends.2.mono (by omega)⟩
  refine (before levels state plain hasLeft endsLeft steps least leastLe (by omega)).trans ?_
  have read := behind levels _ (plain.movedTo _) hasRight endsRight (steps - 1) (level + 1)
    (by omega) (by omega)
  have below := ends.2
  rw [operators.language] at below hasLevel
  refine binaryStep_some (by simp [symbol])
    (atBinary?_some operators.language symbol isBinary hasLevel leastLe)
    (read.trans (.inl (binaryStep_none (atBinary?_none operators.language below)))) ?_
  simp only [ParseState.position_movedTo]
  omega

theorem cast (operators : OperatorContext context) (inside : Completes context .unary tokens tree)
    (levels : Nat) (state : ParseState) (plain : state.IsPlain)
    (has : context.tokens.HasAt state.position tokens)
    (ends : Phrase.unary.EndsBefore context.language
      (context.tokens.get (state.position + tokens.length)).kind) :
    Agrees True state.diagnostics ((ofLevels levels).cast context state)
      (.ok tree (state.movedTo (state.position + tokens.length))) := by
  cases levels with
  | zero => exact Agrees.tooDeep trivial plain.calm _
  | succ levels =>
      change Agrees _ _ (castRule (ofLevels levels) context state) _
      rw [castRule_of_noType (operators.noType plain)]
      exact inside levels state plain has ends

theorem operand (operators : OperatorContext context) (notEmpty : 0 < tokens.length)
    (inside : Completes context .unary tokens tree) :
    Completes context (.binary 13) tokens tree := by
  intro levels state plain has ends steps least _ enough
  exact binaryWithin_of_cast (by omega) (inside.cast operators levels state plain has ends.1)

theorem unprefixed (begins : ∃ token rest, tokens = token :: rest ∧
      token.kind.precedesOperand = false)
    (inside : Completes context .suffixed tokens tree) :
    Completes context .unary tokens tree := by
  intro levels state plain has ends
  cases levels with
  | zero => exact Agrees.tooDeep trivial plain.calm _
  | succ levels =>
      obtain ⟨token, rest, rfl, notBefore⟩ := begins
      change Agrees _ _ (unaryRule (ofLevels levels) context state) _
      rw [unaryRule_suffixed (by rw [has.2.1]; exact notBefore)]
      exact (inside levels state plain has trivial).trans (.inl (addSuffix_none ends))

theorem prefixed (operators : OperatorContext context) {operator : Operator}
    {unary : UnaryOperator} (symbol : token.kind = .operator operator)
    (isPrefix : (operator, unary) ∈ Phrase.prefixOperators)
    (inside : Completes context .unary tokens tree) :
    Completes context .unary (token :: tokens)
      (.ofChildren (.unary unary) token.location [tree]) := by
  intro levels state plain has ends
  cases levels with
  | zero => exact Agrees.tooDeep trivial plain.calm _
  | succ levels =>
      obtain ⟨_, rfl, hasRest⟩ := has
      rw [List.length_cons, show state.position + (tokens.length + 1) =
        state.position + 1 + tokens.length by omega] at ends ⊢
      have readUnary := inside levels _ (plain.movedTo (state.position + 1)) hasRest ends
      have readCast := inside.cast operators levels _ (plain.movedTo (state.position + 1)) hasRest
        ends
      change Agrees _ _ (unaryRule (ofLevels levels) context state) _
      simp only [Phrase.prefixOperators, List.mem_cons, Prod.mk.injEq, List.not_mem_nil,
        or_false] at isPrefix
      rcases isPrefix with ⟨rfl, rfl⟩ | ⟨rfl, rfl⟩ | isSign
      · rw [unaryRule_increment symbol]
        exact applied_agrees (by simp [symbol]) readUnary
      · rw [unaryRule_decrement symbol]
        exact applied_agrees (by simp [symbol]) readUnary
      · have isCast : castOperator? operator = some unary := by
          rcases isSign with ⟨rfl, rfl⟩ | ⟨rfl, rfl⟩ | ⟨rfl, rfl⟩ | ⟨rfl, rfl⟩ | ⟨rfl, rfl⟩ |
            ⟨rfl, rfl⟩ <;> rfl
        rw [unaryRule_castOperator symbol isCast]
        exact applied_agrees (by simp [symbol]) readCast

theorem unsuffixed (inside : Completes context .primary tokens tree) :
    Completes context .suffixed tokens tree := by
  intro levels state plain has _
  exact suffixed_of_primary (inside levels state plain has trivial)

theorem subscript {base inner : List Token} {opening closing : Token} {array index : Node}
    (before : Completes context .suffixed base array)
    (opens : opening.kind = .punctuator .openBracket)
    (inside : Completes context .expression inner index)
    (closes : closing.kind = .punctuator .closeBracket) :
    Completes context .suffixed (base ++ opening :: (inner ++ [closing]))
      (.ofChildren .subscript opening.location [array, index]) := by
  intro levels state plain has _
  rw [length_append_cons, List.length_append, List.length_singleton, ← Nat.add_assoc]
  obtain ⟨hasBase, _, rfl, hasLater⟩ := (TokenStream.hasAt_append _ _ _).mp has
  obtain ⟨hasInner, _, rfl, _⟩ := (TokenStream.hasAt_append _ _ _).mp hasLater
  refine (before levels state plain hasBase trivial).trans ?_
  refine addSuffix_subscript opens (inside.expression_whole levels _ (plain.movedTo _) hasInner
    closes (by simp [TokenKind.extendsOperand]) (by simp)) closes ?_
  simp only [ParseState.position_movedTo]
  omega

theorem callEmpty {base : List Token} {opening closing : Token} {callee : Node}
    (before : Completes context .suffixed base callee)
    (opens : opening.kind = .punctuator .openParen)
    (closes : closing.kind = .punctuator .closeParen) :
    Completes context .suffixed (base ++ [opening, closing])
      (.ofChildren .call opening.location [callee]) := by
  intro levels state plain has _
  rw [length_append_cons, List.length_singleton]
  obtain ⟨hasBase, _, rfl, _, rfl, _⟩ := (TokenStream.hasAt_append _ _ _).mp has
  refine (before levels state plain hasBase trivial).trans ?_
  refine addSuffix_call opens (.inl (callArguments_none closes)) closes ?_
  simp only [ParseState.position_movedTo]
  omega

/-- Arguments in front of the closing parenthesis, of which `nodes` have been read. -/
theorem arguments {inner : List Token} {first : Node} {later : List LaterArgument}
    (inside : Completes context .assignment inner first)
    (commas : ∀ argument ∈ later, argument.comma.kind = .punctuator .comma)
    (others : ∀ argument ∈ later, Completes context .assignment argument.tokens argument.tree)
    (levels : Nat) (state : ParseState) (plain : state.IsPlain) (nodes : Array Node)
    (has : context.tokens.HasAt state.position
      (inner ++ later.flatMap LaterArgument.stretch))
    (closes : (context.tokens.get (state.position +
      (inner ++ later.flatMap LaterArgument.stretch).length)).kind =
        .punctuator .closeParen) :
    Agrees True state.diagnostics
      (listAfter (ofLevels levels).assignment nodes context state)
      (.ok (nodes ++ (first :: later.map LaterArgument.tree).toArray)
        (state.movedTo
          (state.position + (inner ++ later.flatMap LaterArgument.stretch).length))) := by
  -- The nodes read so far are kept general: each argument goes behind them.
  induction later generalizing inner first state nodes with
  | nil =>
      simp only [List.flatMap_nil, List.append_nil] at has closes ⊢
      have ends := Phrase.endsBefore_punctuator context.language .assignment closes
        (by simp [closes, TokenKind.extendsOperand])
      refine (inside levels state plain has ends).carry ?_ ?_
      · intro same
        simpa using listAfter_last same (by simp [closes])
      · intro after same
        exact listAfter_error same
  | cons argument later ih =>
      simp only [List.flatMap_cons, LaterArgument.stretch, List.cons_append,
        length_append_cons] at has closes ⊢
      obtain ⟨hasFirst, _, comma, hasLater⟩ := (TokenStream.hasAt_append _ _ _).mp has
      have isComma : (context.tokens.get (state.position + inner.length)).kind =
          .punctuator .comma := by
        rw [comma]
        exact commas argument (by simp)
      have ends := Phrase.endsBefore_punctuator context.language .assignment isComma
        (by simp [isComma, TokenKind.extendsOperand])
      refine (inside levels state plain hasFirst ends).chain ?_ ?_
      · intro same
        rw [listAfter_comma same isComma (by omega)]
        simpa using ih (others argument (by simp))
          (fun other isLater => commas other (by simp [isLater]))
          (fun other isLater => others other (by simp [isLater]))
          (state.movedTo (state.position + inner.length + 1)) (plain.movedTo _)
          (nodes.push first) hasLater closes
      · intro after same
        exact listAfter_error same

theorem call {base inner : List Token} {opening closing : Token} {callee first : Node}
    {later : List LaterArgument} (before : Completes context .suffixed base callee)
    (opens : opening.kind = .punctuator .openParen)
    (begins : ∃ token rest, inner = token :: rest ∧
      ∀ punctuator, token.kind = .punctuator punctuator → punctuator = .openParen)
    (inside : Completes context .assignment inner first)
    (commas : ∀ argument ∈ later, argument.comma.kind = .punctuator .comma)
    (others : ∀ argument ∈ later, Completes context .assignment argument.tokens argument.tree)
    (closes : closing.kind = .punctuator .closeParen) :
    Completes context .suffixed
      (base ++ opening :: (inner ++ later.flatMap LaterArgument.stretch ++ [closing]))
      (.ofChildren .call opening.location
        (callee :: first :: later.map LaterArgument.tree)) := by
  intro levels state plain has _
  rw [length_append_cons, List.length_append, List.length_singleton, ← Nat.add_assoc]
  obtain ⟨hasBase, _, rfl, hasLater⟩ := (TokenStream.hasAt_append _ _ _).mp has
  obtain ⟨hasInner, _, rfl, _⟩ := (TokenStream.hasAt_append _ _ _).mp hasLater
  obtain ⟨token, rest, rfl, begins⟩ := begins
  -- Arguments begin like phrases, so the closing parenthesis of an empty list is not at hand.
  have notClosed : (context.tokens.get (state.position + base.length + 1)).kind ≠
      .punctuator .closeParen := by
    intro isClosing
    rw [hasInner.2.1] at isClosing
    simpa using begins _ isClosing
  have read := inside.arguments commas others levels
    (state.movedTo (state.position + base.length + 1)) (plain.movedTo _) #[] hasInner closes
  rw [← callArguments_some notClosed] at read
  refine (before levels state plain hasBase trivial).trans ?_
  refine (addSuffix_call opens read closes ?_).trans (.inl (by simp))
  simp only [ParseState.position_movedTo]
  omega

theorem member {operator : Operator} {kind : NodeKind} {base : List Token} {symbol name : Token}
    {object : Node} (before : Completes context .suffixed base object)
    (isSymbol : symbol.kind = .operator operator)
    (isMember : (operator, kind) ∈ Phrase.memberOperators)
    (isName : name.kind = .identifier) :
    Completes context .suffixed (base ++ [symbol, name])
      ⟨kind, symbol.location, .name name.lexeme, [object]⟩ := by
  intro levels state plain has _
  rw [List.length_append, ← Nat.add_assoc]
  obtain ⟨hasBase, _, rfl, _, rfl, _⟩ := (TokenStream.hasAt_append _ _ _).mp has
  refine (before levels state plain hasBase trivial).trans (.inl ?_)
  simp only [Phrase.memberOperators, List.mem_cons, Prod.mk.injEq, List.not_mem_nil,
    or_false] at isMember
  rcases isMember with ⟨rfl, rfl⟩ | ⟨rfl, rfl⟩
  · exact addSuffix_member isSymbol isName
  · exact addSuffix_arrow isSymbol isName

theorem stepped {operator : Operator} {unary : UnaryOperator} {base : List Token} {symbol : Token}
    (before : Completes context .suffixed base tree)
    (isSymbol : symbol.kind = .operator operator)
    (isStep : (operator, unary) ∈ Phrase.suffixOperators) :
    Completes context .suffixed (base ++ [symbol])
      (.ofChildren (.unary unary) symbol.location [tree]) := by
  intro levels state plain has _
  rw [List.length_append, ← Nat.add_assoc]
  obtain ⟨hasBase, _, rfl, _⟩ := (TokenStream.hasAt_append _ _ _).mp has
  refine (before levels state plain hasBase trivial).trans (.inl ?_)
  simp only [Phrase.suffixOperators, List.mem_cons, Prod.mk.injEq, List.not_mem_nil,
    or_false] at isStep
  rcases isStep with ⟨rfl, rfl⟩ | ⟨rfl, rfl⟩
  · exact addSuffix_stepUp isSymbol
  · exact addSuffix_stepDown isSymbol

theorem name (operators : OperatorContext context) (isName : token.kind = .identifier) :
    Completes context .primary [token] (.named .identifier token.location token.lexeme) := by
  intro levels state plain has _
  obtain ⟨_, rfl, _⟩ := has
  exact .inl (primary_identifier isName (operators.noTypeName plain isName))

theorem integer (isInteger : token.kind = .literal .integer) :
    Completes context .primary [token]
      (.leaf .integerLiteral token.location (.literal (token.literalOf .integer))) := by
  intro levels state plain has _
  obtain ⟨_, rfl, _⟩ := has
  exact .inl (primary_integer isInteger)

theorem parenthesized (operators : OperatorContext context) {inner : List Token}
    {opening closing : Token} (opens : opening.kind = .punctuator .openParen)
    (inside : Completes context .expression inner tree)
    (closes : closing.kind = .punctuator .closeParen) :
    Completes context .primary (opening :: (inner ++ [closing])) tree := by
  intro levels state plain has _
  obtain ⟨_, rfl, hasLater⟩ := has
  obtain ⟨hasInner, _, rfl, _⟩ := (TokenStream.hasAt_append _ _ _).mp hasLater
  have read := primary_parenthesized opens (operators.noBrace _)
    (inside.expression_whole levels _ (plain.movedTo (state.position + 1)) hasInner closes
      (by simp [TokenKind.extendsOperand]) (by simp)) closes
  rwa [length_enclosed]

end Completes

/-- The productions read every phrase, or find that it nests too deeply. -/
theorem Derives.completes {context : ParseContext} (operators : OperatorContext context)
    {phrase : Phrase} {tokens : List Token} {tree : Node}
    (derives : Derives context.language phrase tokens tree) :
    Completes context phrase tokens tree := by
  -- One lemma for each way to build a phrase; where a look at the next token decides, it also
  -- needs what the inner phrase begins with.
  induction derives with
  | single _ inside => exact inside.single
  | comma _ isComma _ before behind => exact before.comma isComma behind
  | value _ inside => exact inside.value
  | assign _ symbol isAssignment _ before behind =>
      exact before.assign operators symbol isAssignment behind
  | plain _ inside => exact inside.plain operators
  | choice _ asks taken divides _ before between behind =>
      obtain ⟨token, rest, same, opens, _⟩ := taken.begins
      exact before.choice operators asks between divides ⟨token, rest, same, opens⟩ behind
  | tighter _ _ _ inside => exact inside.tighter
  | operated _ _ _ symbol hasLevel isBinary _ before behind =>
      exact before.operated operators symbol hasLevel isBinary behind
  | operand unary inside =>
      obtain ⟨token, rest, rfl, _⟩ := unary.begins
      exact inside.operand operators (by simp)
  | unprefixed suffixed inside =>
      obtain ⟨token, rest, same, _, noOperator⟩ := suffixed.begins
      refine inside.unprefixed ⟨token, rest, same, ?_⟩
      have neither := noOperator (.inl rfl)
      cases kind : token.kind with
      | operator operator => exact absurd kind (neither operator).1
      | keyword word => exact absurd kind ((neither .plus).2 word)
      | _ => rfl
  | prefixed symbol isPrefix _ inside => exact inside.prefixed operators symbol isPrefix
  | unsuffixed _ inside => exact inside.unsuffixed
  | subscript _ opens _ closes before inside => exact before.subscript opens inside closes
  | callEmpty _ opens closes before => exact before.callEmpty opens closes
  | call _ opens first commas _ closes before inside others =>
      obtain ⟨token, rest, same, begins, _⟩ := first.begins
      exact before.call opens ⟨token, rest, same, begins⟩ inside commas others closes
  | member _ isSymbol isMember isName before => exact before.member isSymbol isMember isName
  | stepped _ isSymbol isStep before => exact before.stepped isSymbol isStep
  | name isName => exact .name operators isName
  | integer isInteger => exact .integer isInteger
  | parenthesized opens _ closes inside => exact .parenthesized operators opens inside closes

end CFrontEnd
