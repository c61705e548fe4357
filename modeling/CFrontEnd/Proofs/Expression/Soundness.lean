import CFrontEnd.Proofs.Expression.Grammar
import CFrontEnd.Proofs.Grammar.Accounting
import CFrontEnd.Proofs.Grammar.Operators

/-!
What the productions read, the grammar of operator expressions derives. The loop over binary
operators keeps that no operator behind its operand binds tighter than the operand itself.
-/

namespace CFrontEnd

open Productions Parse

/-- What the production reads is a phrase of that sort. -/
def Reads (context : ParseContext) (phrase : Phrase) (production : Parse Node) : Prop :=
  ∀ state : ParseState, state.IsPlain →
    Accounts context state (Derives context.language phrase) (production context state)

/-- A phrase of tighter operators is one of looser operators. -/
theorem Derives.loosen {language : Language} {level tight : Nat} {tokens : List Token} {tree : Node}
    (derives : Derives language (.binary tight) tokens tree) (low : 3 ≤ level)
    (le : level ≤ tight) (high : tight ≤ 13) : Derives language (.binary level) tokens tree := by
  induction le with
  | refl => exact derives
  | step le ih => exact ih (.tighter (Nat.le_trans low le) (by omega) derives) (by omega)

theorem Derives.ne_nil {language : Language} {phrase : Phrase} {tokens : List Token} {tree : Node}
    (derives : Derives language phrase tokens tree) : tokens ≠ [] := by
  obtain ⟨token, rest, rfl, _⟩ := derives.begins
  simp

/-- The tokens are arguments with commas between them, and these stand for the trees. -/
def DerivesArguments (language : Language) (tokens : List Token) (trees : List Node) : Prop :=
  ∃ inner first, ∃ later : List LaterArgument,
    tokens = inner ++ later.flatMap LaterArgument.stretch ∧
    trees = first :: later.map LaterArgument.tree ∧
    Derives language .assignment inner first ∧
    (∀ argument ∈ later, argument.comma.kind = .punctuator .comma) ∧
    ∀ argument ∈ later, Derives language .assignment argument.tokens argument.tree

namespace DerivesArguments

variable {language : Language} {base inner later : List Token} {opening comma closing : Token}
  {callee first : Node} {trees : List Node}

theorem single (derives : Derives language .assignment inner first) :
    DerivesArguments language inner [first] :=
  ⟨inner, first, [], by simp, by simp, derives, by simp, by simp⟩

theorem cons (derives : DerivesArguments language later trees)
    (derivesFirst : Derives language .assignment inner first)
    (isComma : comma.kind = .punctuator .comma) :
    DerivesArguments language (inner ++ comma :: later) (first :: trees) := by
  obtain ⟨second, tree, others, rfl, rfl, derivesSecond, commas, derivesOthers⟩ := derives
  refine ⟨inner, first, ⟨comma, second, tree⟩ :: others, by simp [LaterArgument.stretch], by simp,
    derivesFirst, ?_, ?_⟩
  · simpa [isComma] using commas
  · simpa [derivesSecond] using derivesOthers

theorem call (derives : DerivesArguments language inner trees)
    (derivesCallee : Derives language .suffixed base callee)
    (opens : opening.kind = .punctuator .openParen)
    (closes : closing.kind = .punctuator .closeParen) :
    Derives language .suffixed (base ++ opening :: (inner ++ [closing]))
      (.ofChildren .call opening.location (callee :: trees)) := by
  obtain ⟨second, tree, others, rfl, rfl, derivesSecond, commas, derivesOthers⟩ := derives
  exact derivesCallee.call opens derivesSecond commas derivesOthers closes

end DerivesArguments

namespace Reads

variable {context : ParseContext} {deeper : Productions} {state : ParseState}

/-! ## Operators between operands -/

theorem expression (assignment : Reads context .assignment deeper.assignment) :
    Reads context .expression deeper.expression := by
  intro state plain
  refine (assignment state plain).chain rfl ?_ ?_
  · intro tokens first has derives same
    rw [expression_eq, bind_apply, same]
    refine Accounts.repeatFrom _ ?_ tokens first has derives.single
    intro left first hasLeft derivesLeft
    by_cases comma : (context.tokens.get (state.position + left.length)).kind = .punctuator .comma
    · refine (assignment (state.movedTo (state.position + left.length + 1))
        (plain.movedTo _)).chain rfl ?_ ?_
      · intro right second hasRight derivesRight same
        simp only [commaStep, bind_apply, location_apply, consumePunctuator_apply,
          ParseState.position_movedTo, comma, if_true, ParseState.movedTo_movedTo, same,
          pure_apply]
        exact .ok (hasRight.before (by simp [comma])) (by simp; omega)
          ⟨by simp, derivesLeft.comma comma derivesRight⟩
      · intro next same
        simp [commaStep, comma, same]
    · simp only [commaStep, bind_apply, location_apply, consumePunctuator_apply,
        ParseState.position_movedTo, comma, if_false]
      exact .nothing (by simpa [Accounts.Step] using derivesLeft)
  · intro next same
    rw [expression_eq, bind_apply, same]

/-- The phrase is one of operators of some level from `least` on, and no tighter operator is behind
it. -/
def Climbed (context : ParseContext) (start least : Nat) (tokens : List Token) (tree : Node) :
    Prop :=
  ∃ tight, least ≤ tight ∧ tight ≤ 13 ∧
    Derives context.language (.binary tight) tokens tree ∧
    context.language.BinaryBelow (tight + 1) (context.tokens.get (start + tokens.length)).kind

/-- The phrase has operators of at least the level `least`, and no such operator is behind it. -/
def ClimbedAll (context : ParseContext) (start least : Nat) (tokens : List Token) (tree : Node) :
    Prop :=
  Derives context.language (.binary least) tokens tree ∧
    context.language.BinaryBelow least (context.tokens.get (start + tokens.length)).kind

/-- One step takes an operator with its right operand, or ends where there is no such operator. -/
theorem binaryStep (operators : OperatorContext context) {steps least : Nat} (low : 3 ≤ least)
    (operand : ∀ {level : Nat} (state : ParseState), 3 ≤ level → level ≤ 13 → state.IsPlain →
      state.remaining context ≤ steps →
        Accounts context state (ClimbedAll context state.position level)
          (Productions.binaryWithin deeper steps level context state))
    (plain : state.IsPlain) {left : List Token} {tree : Node}
    (fewer : (state.movedTo (state.position + left.length + 1)).remaining context ≤ steps)
    (climbed : Climbed context state.position least left tree) :
    Accounts context (state.movedTo (state.position + left.length))
      (Accounts.Step (Climbed context state.position least)
        (ClimbedAll context state.position least) left)
      (Productions.binaryStep deeper steps least tree context
        (state.movedTo (state.position + left.length))) := by
  obtain ⟨tight, leastLe, tightLe, derivesLeft, below⟩ := climbed
  by_cases ends : context.language.BinaryBelow least
      (context.tokens.get (state.position + left.length)).kind
  · have none : atBinary? least context (state.movedTo (state.position + left.length)) = _ :=
      atBinary?_none operators.language (operators.language ▸ ends)
    simp only [Productions.binaryStep, bind_apply, none]
    refine .nothing ?_
    simpa [Accounts.Step] using ⟨derivesLeft.loosen low leastLe tightLe, ends⟩
  · obtain ⟨operator, binary, level, symbol, isBinary, hasLevel, levelLe⟩ :=
      Language.exists_of_not_binaryBelow ends
    have levelLt := below operator binary level symbol isBinary hasLevel
    have bounds := binary_level isBinary (operators.language ▸ hasLevel)
    have found : atBinary? least context (state.movedTo (state.position + left.length)) = _ :=
      atBinary?_some operators.language symbol isBinary (operators.language ▸ hasLevel) levelLe
    have tighter : 3 ≤ level + 1 := by omega
    refine (operand _ tighter (by omega) (plain.movedTo _) fewer).chain rfl ?_ ?_
    · rintro right second hasRight ⟨derivesRight, belowRight⟩ same
      simp only [Productions.binaryStep, bind_apply, found, location_apply, discard_apply,
        advance_apply, ParseState.position_movedTo, symbol, reduceCtorEq, if_false,
        ParseState.movedTo_movedTo, same, pure_apply]
      refine .ok (hasRight.before (by simp [symbol])) (by simp; omega) ⟨by simp, ?_⟩
      have joined := Derives.operated bounds.1 bounds.2
        (derivesLeft.loosen bounds.1 (by omega) tightLe) symbol hasLevel isBinary derivesRight
      refine ⟨level, levelLe, by omega, joined, ?_⟩
      simpa only [length_append_cons, ParseState.position_movedTo] using belowRight
    · intro next same
      simp [Productions.binaryStep, found, symbol, same]

theorem binaryWithin (operators : OperatorContext context) (cast : Reads context .unary deeper.cast)
    (steps : Nat) {least : Nat} (low : 3 ≤ least) (high : least ≤ 13) (state : ParseState)
    (plain : state.IsPlain) (enough : state.remaining context ≤ steps) :
    Accounts context state (ClimbedAll context state.position least)
      (Productions.binaryWithin deeper steps least context state) := by
  induction steps generalizing least state with
  | zero =>
      refine (cast state plain).imp ?_
      intro tokens tree has derives
      -- A cast takes at least one token, and without steps there is none left.
      have inside := has.lt_size derives.ne_nil
      simp only [ParseState.remaining, TokenStream.remaining, TokenStream.length] at enough
      omega
  | succ steps ih =>
      rw [binaryWithin_succ]
      refine (cast state plain).chain rfl ?_ ?_
      · intro tokens first has derives same
        rw [bind_apply, same]
        -- No operator has been read yet: the first operand counts as one of the tightest level.
        have tightest : Climbed context state.position least tokens first := by
          refine ⟨13, high, Nat.le_refl 13, derives.operand, ?_⟩
          intro operator binary level _ isBinary hasLevel
          rw [operators.language] at hasLevel
          have bounds := binary_level isBinary hasLevel
          omega
        refine Accounts.repeatFrom _ ?_ tokens first has tightest
        intro left tree hasLeft climbed
        -- The operand behind the operator starts at least one token later, so one step less is
        -- enough.
        have fewer : (state.movedTo (state.position + left.length + 1)).remaining context ≤
            steps := by
          simp only [ParseState.remaining, TokenStream.remaining, TokenStream.length,
            ParseState.position_movedTo] at enough ⊢
          omega
        exact binaryStep operators low (fun state tighter bound plain => ih tighter bound state plain)
          plain fewer climbed
      · intro next same
        rw [bind_apply, same]

theorem conditionalRule (operators : OperatorContext context)
    (cast : Reads context .unary deeper.cast)
    (expression : Reads context .expression deeper.expression)
    (conditional : Reads context .conditional deeper.conditional) :
    Reads context .conditional (Productions.conditionalRule deeper) := by
  intro state plain
  have binary : Accounts context state _ (Productions.binary deeper context state) :=
    binaryWithin operators cast (state.remaining context) (Nat.le_refl 3) (by omega) state plain
      (Nat.le_refl _)
  refine binary.chain rfl ?_ ?_
  · rintro test condition hasTest ⟨derivesTest, _⟩ testSame
    by_cases asks : (context.tokens.get (state.position + test.length)).kind = .operator .question
    · refine (expression (state.movedTo (state.position + test.length + 1))
        (plain.movedTo _)).chain rfl ?_ ?_
      · intro taken value hasTaken derivesTaken takenSame
        by_cases divides : (context.tokens.get
            (state.position + test.length + 1 + taken.length)).kind = .punctuator .colon
        · refine (conditional (state.movedTo
            (state.position + test.length + 1 + taken.length + 1)) (plain.movedTo _)).chain
            rfl ?_ ?_
          · intro rest otherwise hasRest derivesRest restSame
            have hasLater := (TokenStream.hasAt_append _ _ _).mpr
              ⟨hasTaken, hasRest.before (by simp [divides])⟩
            have hasAll := (TokenStream.hasAt_append _ _ _).mpr
              ⟨hasTest, hasLater.before (by simp [asks])⟩
            have derives := derivesTest.choice asks derivesTaken divides derivesRest
            refine .inl ⟨_, _, ?_, hasAll, derives⟩
            rw [length_append_cons, length_append_cons]
            simp [Productions.conditionalRule, testSame, asks, consumeInGnu, operators.notGnu,
              takenSame, divides, restSame]
          · intro next restSame
            simp [Productions.conditionalRule, testSame, asks, consumeInGnu, operators.notGnu,
              takenSame, divides, restSame]
        -- Without a colon there is no third operand, and the rule gives up.
        · simp [Productions.conditionalRule, testSame, asks, consumeInGnu, operators.notGnu,
            takenSame, divides, giveUp_apply, plain.calm]
          exact .refused rfl
      · intro next takenSame
        simp [Productions.conditionalRule, testSame, asks, consumeInGnu, operators.notGnu,
          takenSame]
    · refine .inl ⟨_, _, ?_, hasTest, derivesTest.plain⟩
      simp [Productions.conditionalRule, testSame, asks]
  · intro next same
    simp [Productions.conditionalRule, same]

theorem assignmentRule (operators : OperatorContext context)
    (conditional : Reads context .conditional deeper.conditional)
    (assignment : Reads context .assignment deeper.assignment) :
    Reads context .assignment (Productions.assignmentRule deeper) := by
  intro state plain
  refine (conditional state plain).chain rfl ?_ ?_
  · intro left target hasLeft derivesLeft leftSame
    by_cases assigns : ∃ operator meaning,
        (context.tokens.get (state.position + left.length)).kind = .operator operator ∧
        AssignmentOperator.ofOperator? operator = some meaning
    · obtain ⟨operator, meaning, symbol, isAssignment⟩ := assigns
      have found : atAssignment? context (state.movedTo (state.position + left.length)) = _ :=
        atAssignment?_some operators.language symbol isAssignment
      refine (assignment (state.movedTo (state.position + left.length + 1))
        (plain.movedTo _)).chain rfl ?_ ?_
      · intro right value hasRight derivesRight rightSame
        have hasAll := (TokenStream.hasAt_append _ _ _).mpr
          ⟨hasLeft, hasRight.before (by simp [symbol])⟩
        have derives := derivesLeft.assign symbol isAssignment derivesRight
        refine .inl ⟨_, _, ?_, hasAll, derives⟩
        rw [length_append_cons]
        simp [Productions.assignmentRule, leftSame, found, symbol, rightSame]
      · intro next rightSame
        simp [Productions.assignmentRule, leftSame, found, symbol, rightSame]
    · have noAssignment (operator : Operator) (symbol : (context.tokens.get
          (state.position + left.length)).kind = .operator operator) :
          AssignmentOperator.ofOperator? operator = none := by
        cases isAssignment : AssignmentOperator.ofOperator? operator with
        | none => rfl
        | some meaning => exact absurd ⟨operator, meaning, symbol, isAssignment⟩ assigns
      have none : atAssignment? context (state.movedTo (state.position + left.length)) = _ :=
        atAssignment?_none noAssignment
      refine .inl ⟨_, _, ?_, hasLeft, derivesLeft.value⟩
      simp [Productions.assignmentRule, leftSame, none]
  · intro next same
    simp [Productions.assignmentRule, same]

theorem castRule (operators : OperatorContext context)
    (unary : Reads context .unary deeper.unary) :
    Reads context .unary (Productions.castRule deeper) := by
  intro state plain
  rw [castRule_of_noType (operators.noType plain)]
  exact unary state plain

/-! ## Operands -/

theorem primary (operators : OperatorContext context)
    (expression : Reads context .expression deeper.expression) :
    Reads context .primary (Productions.primary deeper) := by
  intro state plain
  -- Only tokens of expressions are in the text, or its end.
  have allowed := operators.token_or_end state.position
  cases kind : (context.tokens.get state.position).kind with
  | identifier =>
    rw [primary_identifier kind (operators.noTypeName plain kind)]
    exact .ok (.single (by simp [kind])) (by simp) (.name kind)
  | literal literal =>
    simp only [Token.IsOperatorToken, kind, reduceCtorEq, or_false] at allowed
    cases literal with
    | integer =>
      rw [primary_integer kind]
      exact .ok (.single (by simp [kind])) (by simp) (.integer kind)
    | _ => exact allowed.elim
  | keyword word => simp [Token.IsOperatorToken, kind] at allowed
  | punctuator punctuator =>
    by_cases opens : punctuator = .openParen
    · subst opens
      refine (expression (state.movedTo (state.position + 1)) (plain.movedTo _)).chain rfl ?_ ?_
      · intro inner tree hasInner derives same
        by_cases closes : (context.tokens.get (state.position + 1 + inner.length)).kind =
            .punctuator .closeParen
        · have hasAll := ((TokenStream.hasAt_append _ _ _).mpr
            ⟨hasInner, .single (by simp [closes])⟩).before (by simp [kind])
          refine .inl ⟨_, _, ?_, hasAll, .parenthesized kind derives closes⟩
          rw [length_enclosed]
          simp [Productions.primary, Productions.parenthesized, kind, operators.noBrace, same,
            closes, expectClosingParen]
        · simp [Productions.primary, Productions.parenthesized, kind, operators.noBrace, same,
            closes, expectClosingParen, giveUp_apply, plain.calm]
          exact .refused rfl
      · intro next same
        simp [Productions.primary, Productions.parenthesized, kind, operators.noBrace, same]
    · simp [Productions.primary, kind, opens, giveUp_apply, plain.calm]
      exact .refused rfl
  | _ =>
    simp [Productions.primary, kind, giveUp_apply, plain.calm]
    exact .refused rfl

/-- The rest of a list of arguments of which `nodes` have been read. -/
theorem arguments (assignment : Reads context .assignment deeper.assignment) (nodes : Array Node)
    (state : ParseState) (plain : state.IsPlain) :
    Accounts context state
      (fun tokens result => ∃ trees, result = nodes ++ trees.toArray ∧
        DerivesArguments context.language tokens trees)
      (listAfter deeper.assignment nodes context state) := by
  induction left : state.remaining context using Nat.strongRecOn generalizing state nodes with
  | ind left ih =>
    subst left
    refine (assignment state plain).chain rfl ?_ ?_
    · intro inner first hasInner derives same
      by_cases comma : (context.tokens.get (state.position + inner.length)).kind =
          .punctuator .comma
      · rw [listAfter_comma same comma (by omega)]
        have fewer : (state.movedTo (state.position + inner.length + 1)).remaining context <
            state.remaining context := by
          have inside := hasInner.lt_size derives.ne_nil
          simp only [ParseState.remaining, TokenStream.remaining, TokenStream.length,
            ParseState.position_movedTo]
          omega
        refine (ih _ fewer (nodes.push first) _ (plain.movedTo _) rfl).chain rfl ?_ ?_
        · rintro later _ hasLater ⟨trees, rfl, derivesLater⟩ run
          rw [run]
          have hasAll := (TokenStream.hasAt_append _ _ _).mpr
            ⟨hasInner, hasLater.before (by simp [comma])⟩
          exact .ok hasAll (by simp; omega)
            ⟨first :: trees, by simp, derivesLater.cons derives comma⟩
        · intro next run
          exact run
      · rw [listAfter_last same comma]
        exact .ok hasInner rfl ⟨[first], by simp, .single derives⟩
    · intro next same
      exact listAfter_error same

/-- A step of the loop over suffixes, behind the tokens of `base`. -/
def Suffixes (context : ParseContext) (state : ParseState) (base : List Token)
    (result : EStateM.Result GivenUp ParseState (ForInStep Node)) : Prop :=
  Accounts context state
    (Accounts.Step (Derives context.language .suffixed) (Derives context.language .suffixed) base)
    result

section Suffixes

variable {base : List Token} {node : Node}

theorem subscript (expression : Reads context .expression deeper.expression) (plain : state.IsPlain)
    (derives : Derives context.language .suffixed base node)
    (opens : (context.tokens.get state.position).kind = .punctuator .openBracket) :
    Suffixes context state base (Productions.addSuffix deeper node context state) := by
  refine (expression (state.movedTo (state.position + 1)) (plain.movedTo _)).chain rfl ?_ ?_
  · intro inner index hasInner derivesIndex same
    by_cases closes : (context.tokens.get (state.position + 1 + inner.length)).kind =
        .punctuator .closeBracket
    · have hasAll := ((TokenStream.hasAt_append _ _ _).mpr
        ⟨hasInner, .single (by simp [closes])⟩).before (by simp [opens])
      refine .inl ⟨_, .yield _, ?_, hasAll, by simp, derives.subscript opens derivesIndex closes⟩
      rw [length_enclosed]
      simp [Productions.addSuffix, opens, same, closes, expectBracketEnd]
    · simp [Productions.addSuffix, opens, same, closes, expectBracketEnd, giveUp_apply, plain.calm]
      exact .refused rfl
  · intro next same
    simp [Productions.addSuffix, opens, same]

theorem call (assignment : Reads context .assignment deeper.assignment) (plain : state.IsPlain)
    (derives : Derives context.language .suffixed base node)
    (opens : (context.tokens.get state.position).kind = .punctuator .openParen) :
    Suffixes context state base (Productions.addSuffix deeper node context state) := by
  by_cases empty : (context.tokens.get (state.position + 1)).kind = .punctuator .closeParen
  · have hasClosing : context.tokens.HasAt (state.position + 1) _ := .single (by simp [empty])
    refine .inl ⟨_, .yield _, ?_, hasClosing.before (by simp [opens]), by simp,
      derives.callEmpty opens empty⟩
    simp [Productions.addSuffix, opens, callArguments_none, empty]
  · have read := arguments assignment #[] (state.movedTo (state.position + 1)) (plain.movedTo _)
    rw [← callArguments_some empty] at read
    refine read.chain rfl ?_ ?_
    · rintro inner _ hasInner ⟨trees, rfl, derivesArguments⟩ same
      by_cases closes : (context.tokens.get (state.position + 1 + inner.length)).kind =
          .punctuator .closeParen
      · have hasAll := ((TokenStream.hasAt_append _ _ _).mpr
          ⟨hasInner, .single (by simp [closes])⟩).before (by simp [opens])
        refine .inl
          ⟨_, .yield _, ?_, hasAll, by simp, derivesArguments.call derives opens closes⟩
        rw [length_enclosed]
        simp [Productions.addSuffix, opens, same, closes]
      · simp [Productions.addSuffix, opens, same, closes, giveUp_apply, plain.calm]
        exact .refused rfl
    · intro next same
      simp [Productions.addSuffix, opens, same]

theorem member {operator : Operator} {kind : NodeKind} (plain : state.IsPlain)
    (derives : Derives context.language .suffixed base node)
    (symbol : (context.tokens.get state.position).kind = .operator operator)
    (isMember : (operator, kind) ∈ Phrase.memberOperators) :
    Suffixes context state base (Productions.addSuffix deeper node context state) := by
  by_cases isName : (context.tokens.get (state.position + 1)).kind = .identifier
  · have hasName : context.tokens.HasAt (state.position + 1) _ := .single (by simp [isName])
    refine .inl ⟨_, .yield _, ?_, hasName.before (by simp [symbol]), by simp,
      derives.member symbol isMember isName⟩
    simp only [Phrase.memberOperators, List.mem_cons, Prod.mk.injEq, List.not_mem_nil,
      or_false] at isMember
    rcases isMember with ⟨rfl, rfl⟩ | ⟨rfl, rfl⟩ <;>
      simp [Productions.addSuffix, symbol, isName]
  · simp only [Phrase.memberOperators, List.mem_cons, Prod.mk.injEq, List.not_mem_nil,
      or_false] at isMember
    rcases isMember with ⟨rfl, rfl⟩ | ⟨rfl, rfl⟩ <;>
      simp [Productions.addSuffix, symbol, isName, giveUp_apply, plain.calm] <;>
      exact .refused rfl

theorem stepped {operator : Operator} {unary : UnaryOperator}
    (derives : Derives context.language .suffixed base node)
    (symbol : (context.tokens.get state.position).kind = .operator operator)
    (isStep : (operator, unary) ∈ Phrase.suffixOperators) :
    Suffixes context state base (Productions.addSuffix deeper node context state) := by
  refine .inl ⟨_, .yield _, ?_, .single (by simp [symbol]), by simp,
    derives.stepped symbol isStep⟩
  simp only [Phrase.suffixOperators, List.mem_cons, Prod.mk.injEq, List.not_mem_nil,
    or_false] at isStep
  rcases isStep with ⟨rfl, rfl⟩ | ⟨rfl, rfl⟩ <;>
    simp [Productions.addSuffix, symbol]

theorem addSuffix (expression : Reads context .expression deeper.expression)
    (assignment : Reads context .assignment deeper.assignment) (plain : state.IsPlain)
    (derives : Derives context.language .suffixed base node) :
    Suffixes context state base (Productions.addSuffix deeper node context state) := by
  by_cases longer : (context.tokens.get state.position).kind.extendsOperand = true
  · cases kind : (context.tokens.get state.position).kind with
    | punctuator punctuator =>
      cases punctuator with
      | openBracket => exact subscript expression plain derives kind
      | openParen => exact call assignment plain derives kind
      | _ => simp [kind, TokenKind.extendsOperand] at longer
    | operator operator =>
      cases operator with
      | dot => exact member plain derives kind (.head _)
      | arrow => exact member plain derives kind (.tail _ (.head _))
      | increment => exact stepped derives kind (.head _)
      | decrement => exact stepped derives kind (.tail _ (.head _))
      | _ => simp [kind, TokenKind.extendsOperand] at longer
    | _ => simp [kind, TokenKind.extendsOperand] at longer
  · rw [addSuffix_done (by simpa using longer)]
    exact .nothing (by simpa [Accounts.Step] using derives)

end Suffixes

theorem suffixed (operators : OperatorContext context)
    (expression : Reads context .expression deeper.expression)
    (assignment : Reads context .assignment deeper.assignment) :
    Reads context .suffixed (Productions.suffixed deeper) := by
  intro state plain
  refine (primary operators expression state plain).chain rfl ?_ ?_
  · intro tokens first has derives same
    simp only [Productions.suffixed, bind_apply, same]
    refine Accounts.repeatFrom _ ?_ tokens first has derives.unsuffixed
    intro base node _ derivesBase
    exact addSuffix expression assignment (plain.movedTo _) derivesBase
  · intro next same
    simp [Productions.suffixed, same]

theorem applied {operator : Operator} {unary : UnaryOperator} {operand : Parse Node}
    (inside : Reads context .unary operand) (plain : state.IsPlain)
    (symbol : (context.tokens.get state.position).kind = .operator operator)
    (isPrefix : (operator, unary) ∈ Phrase.prefixOperators) :
    Accounts context state (Derives context.language .unary)
      (Productions.applied unary operand context state) := by
  refine (inside (state.movedTo (state.position + 1)) (plain.movedTo _)).chain rfl ?_ ?_
  · intro tokens tree has derives same
    refine .inl ⟨_, _, ?_, has.before (by simp [symbol]), derives.prefixed symbol isPrefix⟩
    simp [Productions.applied, symbol, same, Nat.add_assoc, Nat.add_comm 1]
  · intro next same
    simp [Productions.applied, symbol, same]

theorem unaryRule (operators : OperatorContext context)
    (unary : Reads context .unary deeper.unary) (cast : Reads context .unary deeper.cast)
    (expression : Reads context .expression deeper.expression)
    (assignment : Reads context .assignment deeper.assignment) :
    Reads context .unary (Productions.unaryRule deeper) := by
  intro state plain
  have readSuffixed := (suffixed operators expression assignment state plain).imp
    (fun _ _ _ derives => Derives.unprefixed derives)
  cases kind : (context.tokens.get state.position).kind with
  | operator operator =>
    cases isCast : castOperator? operator with
    | some meaning =>
      rw [unaryRule_castOperator kind isCast]
      refine applied cast plain kind ?_
      cases operator <;> simp_all [castOperator?, Phrase.prefixOperators]
    | none =>
      cases operator with
      | increment =>
        rw [unaryRule_increment kind]
        exact applied unary plain kind (.head _)
      | decrement =>
        rw [unaryRule_decrement kind]
        exact applied unary plain kind (.tail _ (.head _))
      | _ =>
        simpa [Productions.unaryRule, atLabelAddress, operators.notGnu, kind, isCast]
          using readSuffixed
  | keyword word =>
    -- No keyword is a token of these expressions.
    have allowed := operators.token_or_end state.position
    simp [Token.IsOperatorToken, kind] at allowed
  | _ =>
    rw [unaryRule_suffixed (by simp [kind, TokenKind.precedesOperand])]
    exact readSuffixed

end Reads

/-- The productions through which expressions contain themselves read phrases of the grammar. -/
structure Productions.Sound (context : ParseContext) (productions : Productions) : Prop where
  assignment : Reads context .assignment productions.assignment
  conditional : Reads context .conditional productions.conditional
  cast : Reads context .unary productions.cast
  unary : Reads context .unary productions.unary

namespace Productions

variable {context : ParseContext}

theorem sound_exhausted : Productions.exhausted.Sound context := by
  have refuses (phrase : Phrase) : Reads context phrase tooDeep :=
    fun _ plain => .inr (refuses_tooDeep plain.calm)
  exact ⟨refuses _, refuses _, refuses _, refuses _⟩

theorem Sound.rules (operators : OperatorContext context) {deeper : Productions}
    (sound : deeper.Sound context) : (rules deeper).Sound context := by
  have expression := sound.assignment.expression
  exact ⟨.assignmentRule operators sound.conditional sound.assignment,
    .conditionalRule operators sound.cast expression sound.conditional,
    .castRule operators sound.unary,
    .unaryRule operators sound.unary sound.cast expression sound.assignment⟩

theorem sound_ofLevels (operators : OperatorContext context) (levels : Nat) :
    (ofLevels levels).Sound context := by
  induction levels with
  | zero => exact sound_exhausted
  | succ levels ih => exact ih.rules operators

end Productions

end CFrontEnd
