import CFrontEnd.Grammar.Start
import CFrontEnd.Proofs.Expression.Grammar
import CFrontEnd.Proofs.Grammar.Operators
import CFrontEnd.Proofs.Tree.Shapes

/-!
How an operand becomes an expression. Each kind of expression is read one level further out than the
kind inside it, and takes it as it is where what comes next is no operator. What is read inside of a tree
needs fewer levels than the tree.
-/

namespace CFrontEnd

/-! ## From one kind of expression to the next -/

/-- The kinds of tokens that end every expression. -/
def TokenKind.endsExpression : TokenKind → Bool
  | .punctuator .closeParen | .punctuator .closeBracket | .punctuator .closeBrace
  | .punctuator .comma | .punctuator .colon | .punctuator .semicolon | .punctuator .ellipsis
  | .endOfFile => true
  | _ => false

theorem TokenKind.extendsOperand_of_endsExpression {kind : TokenKind}
    (ends : kind.endsExpression = true) : kind.extendsOperand = false := by
  cases kind with
  | punctuator punctuator => cases punctuator <;> simp_all [endsExpression, extendsOperand]
  | _ => simp_all [endsExpression, extendsOperand]

theorem TokenKind.notOperator_of_endsExpression {kind : TokenKind}
    (ends : kind.endsExpression = true) (operator : Operator) : kind ≠ .operator operator := by
  rintro rfl
  cases ends

namespace Productions

open Parse

variable {context : ParseContext} {state next : ParseState} {node left right : Node}
  {levels stop : Nat} {dialect : Dialect}

theorem unary_of_suffixed
    (begins : (context.tokens.get state.position).kind.precedesOperand = false)
    (read : suffixed (ofLevels levels) context state =
      repeatFrom (addSuffix (ofLevels levels)) node context (state.movedTo stop))
    (ends : (context.tokens.get stop).kind.extendsOperand = false) :
    (ofLevels (levels + 1)).unary context state = .ok node (state.movedTo stop) := by
  change unaryRule (ofLevels levels) context state = _
  rw [unaryRule_suffixed begins, read, addSuffix_none ends]

theorem cast_of_unary (noType : atParenthesizedType context state = .ok false state)
    (read : (ofLevels levels).unary context state = .ok node next) :
    (ofLevels (levels + 1)).cast context state = .ok node next := by
  change castRule (ofLevels levels) context state = _
  rw [castRule_of_noType noType, read]

/-- An operand alone, in front of no operator of the level. -/
theorem binaryWithin_of_single (isC : context.language = cLanguage dialect) {steps least : Nat}
    (read : (ofLevels levels).cast context state = .ok node next)
    (below : (cLanguage dialect).BinaryBelow least (context.tokens.get next.position).kind) :
    binaryWithin (ofLevels levels) steps least context state = .ok node next := by
  cases steps with
  | zero => exact read
  | succ steps =>
      have agrees : Agrees False .empty
          (binaryWithin (ofLevels levels) (steps + 1) least context state) _ :=
        binaryWithin_of_cast (Nat.succ_pos steps) (.inl read)
      rw [agrees.eq]
      exact binaryStep_none (atBinary?_none isC below)

theorem conditional_of_cast (isC : context.language = cLanguage dialect)
    (read : (ofLevels levels).cast context state = .ok node next)
    (below : (cLanguage dialect).BinaryBelow 3 (context.tokens.get next.position).kind)
    (noQuestion : (context.tokens.get next.position).kind ≠ .operator .question) :
    (ofLevels (levels + 1)).conditional context state = .ok node next := by
  have whole : binary (ofLevels levels) context state = .ok node next :=
    binaryWithin_of_single isC read below
  have agrees : Agrees False .empty (conditionalRule (ofLevels levels) context state) _ :=
    conditionalRule_plain (.inl whole) noQuestion
  exact agrees.eq

theorem assignment_of_conditional
    (read : (ofLevels levels).conditional context state = .ok node next)
    (noAssignment : ∀ operator, (context.tokens.get next.position).kind = .operator operator →
      AssignmentOperator.ofOperator? operator = none) :
    (ofLevels (levels + 1)).assignment context state = .ok node next := by
  have agrees : Agrees False .empty (assignmentRule (ofLevels levels) context state) _ :=
    assignmentRule_plain (.inl read) (atAssignment?_none noAssignment)
  exact agrees.eq

theorem expression_of_single
    (read : (ofLevels levels).assignment context state = .ok node next)
    (noComma : (context.tokens.get next.position).kind ≠ .punctuator .comma) :
    (ofLevels levels).expression context state = .ok node next := by
  have agrees : Agrees False .empty ((ofLevels levels).expression context state) _ :=
    expression_of_assignment (.inl read)
  rw [agrees.eq]
  exact commaStep_none noComma

end Productions

/-! ## Trees read from so many levels on -/

section

open Productions Parse

/-- With at least `need` levels left, the production reads a tree of the shape up to `stop`. -/
def ReadsAs (production : Productions → Parse Node) (context : ParseContext) (state : ParseState)
    (need stop : Nat) (tree : Node) : Prop :=
  ∀ levels, need ≤ levels → ∃ node, node.sameShape tree = true ∧
    production (ofLevels levels) context state = .ok node (state.movedTo stop)

/-- The tree is what has been read of an operand when `stop` is reached; suffixes may follow there. -/
def ReadsOperand (context : ParseContext) (state : ParseState) (need stop : Nat) (tree : Node) :
    Prop :=
  ∀ levels, need ≤ levels → ∃ node, node.sameShape tree = true ∧
    suffixed (ofLevels levels) context state =
      repeatFrom (addSuffix (ofLevels levels)) node context (state.movedTo stop)

/-- What stands here is an operand without an operator in front, and begins no type. -/
structure StartsOperand (context : ParseContext) (state : ParseState) : Prop where
  kind : (context.tokens.get state.position).kind = .identifier ∨
    (context.tokens.get state.position).kind = .literal .integer ∨
    (context.tokens.get state.position).kind = .punctuator .openParen
  noTypeName : beginsTypeName context state (context.tokens.get state.position) = false
  noType : atParenthesizedType context state = .ok false state

variable {context : ParseContext} {state : ParseState} {need stop place : Nat}
  {tree left right condition otherwise : Node} {dialect : Dialect}

namespace StartsOperand

theorem notPrefix (starts : StartsOperand context state) :
    (context.tokens.get state.position).kind.precedesOperand = false := by
  rcases starts.kind with same | same | same <;> rw [same] <;> rfl

theorem punctuator (starts : StartsOperand context state) {punctuator : Punctuator}
    (same : (context.tokens.get state.position).kind = .punctuator punctuator) :
    punctuator = .openParen := by
  rcases starts.kind with other | other | other <;> rw [same] at other <;> simp_all

end StartsOperand

/-! ## From an operand to an expression -/

/-- What one level further in reads, a production that does no more than that reads as well. -/
theorem ReadsAs.further {inner outer : Productions → Parse Node}
    (reads : ReadsAs inner context state need stop tree)
    (reaches : ∀ {levels : Nat} {node : Node},
      inner (ofLevels levels) context state = .ok node (state.movedTo stop) →
        outer (ofLevels (levels + 1)) context state = .ok node (state.movedTo stop)) :
    ReadsAs outer context state (need + 1) stop tree := by
  intro levels enough
  obtain ⟨levels, rfl⟩ : ∃ fewer, levels = fewer + 1 := ⟨levels - 1, by omega⟩
  obtain ⟨node, same, read⟩ := reads levels (by omega)
  exact ⟨node, same, reaches read⟩

theorem ReadsOperand.unary (starts : StartsOperand context state)
    (reads : ReadsOperand context state need stop tree)
    (ends : (context.tokens.get stop).kind.extendsOperand = false) :
    ReadsAs Productions.unary context state (need + 1) stop tree := by
  intro levels enough
  obtain ⟨levels, rfl⟩ : ∃ fewer, levels = fewer + 1 := ⟨levels - 1, by omega⟩
  obtain ⟨node, same, read⟩ := reads levels (by omega)
  exact ⟨node, same, unary_of_suffixed starts.notPrefix read ends⟩

namespace ReadsAs

theorem cast (noType : atParenthesizedType context state = .ok false state)
    (reads : ReadsAs Productions.unary context state need stop tree) :
    ReadsAs Productions.cast context state (need + 1) stop tree :=
  reads.further fun read => cast_of_unary noType read

theorem conditional (isC : context.language = cLanguage dialect)
    (reads : ReadsAs Productions.cast context state need stop tree)
    (below : (cLanguage dialect).BinaryBelow 3 (context.tokens.get stop).kind)
    (noQuestion : (context.tokens.get stop).kind ≠ .operator .question) :
    ReadsAs Productions.conditional context state (need + 1) stop tree :=
  reads.further fun read => conditional_of_cast isC read below noQuestion

theorem assignment
    (reads : ReadsAs Productions.conditional context state need stop tree)
    (ends : (context.tokens.get stop).kind.endsExpression = true) :
    ReadsAs Productions.assignment context state (need + 1) stop tree := by
  refine reads.further fun read => assignment_of_conditional read ?_
  intro operator isOperator
  exact absurd isOperator (TokenKind.notOperator_of_endsExpression ends operator)

theorem expression (reads : ReadsAs Productions.assignment context state need stop tree)
    (noComma : (context.tokens.get stop).kind ≠ .punctuator .comma) :
    ReadsAs Productions.expression context state need stop tree := by
  intro levels enough
  obtain ⟨node, same, read⟩ := reads levels enough
  exact ⟨node, same, expression_of_single read noComma⟩

theorem inParens (reads : ReadsAs Productions.conditional context state need stop tree)
    (closes : (context.tokens.get stop).kind = .punctuator .closeParen) :
    ReadsAs Productions.expression context state (need + 1) stop tree :=
  (reads.assignment (by rw [closes]; rfl)).expression (by rw [closes]; simp)

theorem mono {production : Productions → Parse Node} {more : Nat}
    (reads : ReadsAs production context state need stop tree) (le : need ≤ more) :
    ReadsAs production context state more stop tree :=
  fun levels enough => reads levels (Nat.le_trans le enough)

end ReadsAs

theorem TokenKind.binaryBelow_of_endsExpression {kind : TokenKind}
    (ends : kind.endsExpression = true) (least : Nat) :
    (cLanguage dialect).BinaryBelow least kind :=
  Language.binaryBelow_of_notBinary fun operator same =>
    absurd same (TokenKind.notOperator_of_endsExpression ends operator)

namespace ReadsOperand

theorem mono {more : Nat} (reads : ReadsOperand context state need stop tree) (le : need ≤ more) :
    ReadsOperand context state more stop tree :=
  fun levels enough => reads levels (Nat.le_trans le enough)

theorem cast (starts : StartsOperand context state)
    (reads : ReadsOperand context state need stop tree)
    (ends : (context.tokens.get stop).kind.extendsOperand = false) :
    ReadsAs Productions.cast context state (need + 2) stop tree :=
  (reads.unary starts ends).cast starts.noType

theorem conditional (isC : context.language = cLanguage dialect)
    (starts : StartsOperand context state) (reads : ReadsOperand context state need stop tree)
    (ends : (context.tokens.get stop).kind.endsExpression = true) :
    ReadsAs Productions.conditional context state (need + 3) stop tree :=
  (reads.cast starts (TokenKind.extendsOperand_of_endsExpression ends)).conditional isC
    (TokenKind.binaryBelow_of_endsExpression ends 3)
    (TokenKind.notOperator_of_endsExpression ends .question)

theorem assignment (isC : context.language = cLanguage dialect)
    (starts : StartsOperand context state) (reads : ReadsOperand context state need stop tree)
    (ends : (context.tokens.get stop).kind.endsExpression = true) :
    ReadsAs Productions.assignment context state (need + 4) stop tree :=
  (reads.conditional isC starts ends).assignment ends

theorem expression (isC : context.language = cLanguage dialect)
    (starts : StartsOperand context state) (reads : ReadsOperand context state need stop tree)
    (ends : (context.tokens.get stop).kind.endsExpression = true)
    (noComma : (context.tokens.get stop).kind ≠ .punctuator .comma) :
    ReadsAs Productions.expression context state (need + 4) stop tree :=
  (reads.assignment isC starts ends).expression noComma

end ReadsOperand

end

end CFrontEnd
