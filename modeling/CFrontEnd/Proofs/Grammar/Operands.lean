import CFrontEnd.Proofs.Grammar.Nesting
import CFrontEnd.Grammar.Rules.Expressions

/-!
The operands of expressions: primary expressions, what follows them, and the operators in front of
them. Each lemma says how a production runs if the productions inside it run as expected.
-/

namespace CFrontEnd

/-- The kinds of tokens that make a longer operand of the one before them. -/
def TokenKind.extendsOperand : TokenKind → Bool
  | .punctuator .openBracket | .punctuator .openParen | .operator .dot | .operator .arrow
  | .operator .increment | .operator .decrement => true
  | _ => false

/-- The kinds of tokens that may be an operator in front of an operand. -/
def TokenKind.precedesOperand : TokenKind → Bool
  | .operator _ | .keyword _ => true
  | _ => false

namespace TokenStream

variable {stream : TokenStream} {position : Nat}

theorem lt_size_of_kind (notEnd : (stream.get position).kind ≠ .endOfFile) :
    position < stream.body.size := by
  by_cases inside : position < stream.body.size
  · exact inside
  · exact absurd (by simp [get, inside, final, Token.endOfFile]) notEnd

end TokenStream

theorem ParseState.remaining_movedTo_lt {context : ParseContext} {state : ParseState} {stop : Nat}
    (notEnd : (context.tokens.get state.position).kind ≠ .endOfFile)
    (forward : state.position < stop) :
    (state.movedTo stop).remaining context < state.remaining context := by
  have inside := TokenStream.lt_size_of_kind notEnd
  simp only [remaining, TokenStream.remaining, TokenStream.length, position_movedTo]
  omega

namespace Productions

open Parse

variable {deeper : Productions} {limited : Prop} {diagnostics : Diagnostics}
  {context : ParseContext} {state : ParseState} {base inner : Node} {stop : Nat}

/-! ## Primary expressions -/

theorem primary_identifier (isName : (context.tokens.get state.position).kind = .identifier)
    (noType : context.language.isTypeName state.scopes.isTypedefName
      (context.tokens.get state.position).lexeme = false) :
    primary deeper context state =
      .ok (.named .identifier (context.tokens.get state.position).location
        (context.tokens.get state.position).lexeme) (state.movedTo (state.position + 1)) := by
  simp [primary, name, isName, noType]

theorem primary_literal {kind : LiteralKind}
    (isLiteral : (context.tokens.get state.position).kind = .literal kind) (alone : kind ≠ .string) :
    primary deeper context state =
      .ok (.leaf (literalKind kind) (context.tokens.get state.position).location
        (.literal ((context.tokens.get state.position).literalOf kind)))
        (state.movedTo (state.position + 1)) := by
  cases kind with
  | string => exact absurd rfl alone
  | _ => simp [primary, literal, isLiteral]

theorem primary_integer
    (isInteger : (context.tokens.get state.position).kind = .literal .integer) :
    primary deeper context state =
      .ok (.leaf .integerLiteral (context.tokens.get state.position).location
        (.literal ((context.tokens.get state.position).literalOf .integer)))
        (state.movedTo (state.position + 1)) :=
  primary_literal isInteger (by decide)

theorem primary_parenthesized
    (opens : (context.tokens.get state.position).kind = .punctuator .openParen)
    (noBlock : (context.tokens.get (state.position + 1)).kind ≠ .punctuator .openBrace)
    (inside : Agrees limited diagnostics
      (deeper.expression context (state.movedTo (state.position + 1)))
      (.ok inner (state.movedTo stop)))
    (closes : (context.tokens.get stop).kind = .punctuator .closeParen) :
    Agrees limited diagnostics (primary deeper context state)
      (.ok inner (state.movedTo (stop + 1))) := by
  refine inside.carry ?_ ?_
  · intro same
    simp [primary, parenthesized, opens, noBlock, same, closes, expectClosingParen]
  · intro after same
    simp [primary, parenthesized, opens, noBlock, same]

theorem suffixed_of_primary (inside : Agrees limited diagnostics (primary deeper context state)
      (.ok base (state.movedTo stop))) :
    Agrees limited diagnostics (suffixed deeper context state)
      (repeatFrom (addSuffix deeper) base context (state.movedTo stop)) :=
  inside.bind

/-! ## What follows an operand -/

theorem addSuffix_done
    (ends : (context.tokens.get state.position).kind.extendsOperand = false) :
    addSuffix deeper base context state = .ok (.done base) state := by
  cases kind : (context.tokens.get state.position).kind with
  | operator operator => cases operator <;> simp_all [addSuffix, TokenKind.extendsOperand]
  | punctuator punctuator => cases punctuator <;> simp_all [addSuffix, TokenKind.extendsOperand]
  | _ => simp [addSuffix, kind]

theorem addSuffix_none
    (ends : (context.tokens.get state.position).kind.extendsOperand = false) :
    repeatFrom (addSuffix deeper) base context state = .ok base state :=
  repeatFrom_done (addSuffix_done ends)

theorem addSuffix_subscript
    (opens : (context.tokens.get state.position).kind = .punctuator .openBracket)
    (inside : Agrees limited diagnostics
      (deeper.expression context (state.movedTo (state.position + 1)))
      (.ok inner (state.movedTo stop)))
    (closes : (context.tokens.get stop).kind = .punctuator .closeBracket)
    (forward : state.position < stop) :
    Agrees limited diagnostics (repeatFrom (addSuffix deeper) base context state)
      (repeatFrom (addSuffix deeper)
        (.ofChildren .subscript (context.tokens.get state.position).location [base, inner])
        context (state.movedTo (stop + 1))) := by
  refine Agrees.repeat_yield (inside.carry ?_ ?_)
    (ParseState.remaining_movedTo_lt (by simp [opens]) (by omega))
  · intro same
    simp [addSuffix, opens, same, closes, expectBracketEnd]
  · intro after same
    simp [addSuffix, opens, same]

theorem addSuffix_call {arguments : Array Node}
    (opens : (context.tokens.get state.position).kind = .punctuator .openParen)
    (inside : Agrees limited diagnostics
      (callArguments deeper context (state.movedTo (state.position + 1)))
      (.ok arguments (state.movedTo stop)))
    (closes : (context.tokens.get stop).kind = .punctuator .closeParen)
    (forward : state.position < stop) :
    Agrees limited diagnostics (repeatFrom (addSuffix deeper) base context state)
      (repeatFrom (addSuffix deeper)
        (.ofChildren .call (context.tokens.get state.position).location
          (base :: arguments.toList))
        context (state.movedTo (stop + 1))) := by
  refine Agrees.repeat_yield (inside.carry ?_ ?_)
    (ParseState.remaining_movedTo_lt (by simp [opens]) (by omega))
  · intro same
    simp [addSuffix, opens, same, closes]
  · intro after same
    simp [addSuffix, opens, same]

theorem addSuffix_member
    (point : (context.tokens.get state.position).kind = .operator .dot)
    (isName : (context.tokens.get (state.position + 1)).kind = .identifier) :
    repeatFrom (addSuffix deeper) base context state =
      repeatFrom (addSuffix deeper)
        ⟨.member, (context.tokens.get state.position).location,
          .name (context.tokens.get (state.position + 1)).lexeme, [base]⟩
        context (state.movedTo (state.position + 2)) := by
  refine repeatFrom_yield ?_ (ParseState.remaining_movedTo_lt (by simp [point]) (by omega))
  simp [addSuffix, point, isName]

theorem addSuffix_arrow
    (arrow : (context.tokens.get state.position).kind = .operator .arrow)
    (isName : (context.tokens.get (state.position + 1)).kind = .identifier) :
    repeatFrom (addSuffix deeper) base context state =
      repeatFrom (addSuffix deeper)
        ⟨.arrow, (context.tokens.get state.position).location,
          .name (context.tokens.get (state.position + 1)).lexeme, [base]⟩
        context (state.movedTo (state.position + 2)) := by
  refine repeatFrom_yield ?_ (ParseState.remaining_movedTo_lt (by simp [arrow]) (by omega))
  simp [addSuffix, arrow, isName]

theorem addSuffix_stepUp
    (symbol : (context.tokens.get state.position).kind = .operator .increment) :
    repeatFrom (addSuffix deeper) base context state =
      repeatFrom (addSuffix deeper)
        (.ofChildren (.unary .laterStepUp) (context.tokens.get state.position).location [base])
        context (state.movedTo (state.position + 1)) := by
  refine repeatFrom_yield ?_ (ParseState.remaining_movedTo_lt (by simp [symbol]) (by omega))
  simp [addSuffix, symbol]

theorem addSuffix_stepDown
    (symbol : (context.tokens.get state.position).kind = .operator .decrement) :
    repeatFrom (addSuffix deeper) base context state =
      repeatFrom (addSuffix deeper)
        (.ofChildren (.unary .laterStepDown) (context.tokens.get state.position).location [base])
        context (state.movedTo (state.position + 1)) := by
  refine repeatFrom_yield ?_ (ParseState.remaining_movedTo_lt (by simp [symbol]) (by omega))
  simp [addSuffix, symbol]

/-! ## Lists of arguments -/

def separatedStep (item : Parse Node) (items : Items) : Parse (ForInStep Items) := do
  match ← attempt item with
  | none => return .done { items with completed := false }
  | some node =>
    let items : Items := ⟨items.nodes.push node, true⟩
    if ← consumePunctuator .comma then return .yield items else return .done items

/-- The rest of a list of which `nodes` have been read. -/
def listAfter (item : Parse Node) (nodes : Array Node) : Parse (Array Node) :=
  completed (iterate ⟨nodes, true⟩ (separatedStep item))

theorem listOf_eq_listAfter (item : Parse Node) : listOf item = listAfter item #[] := rfl

theorem listAfter_error {item : Parse Node} {nodes : Array Node} {after : ParseState}
    (gaveUp : item context state = .error .givenUp after) :
    listAfter item nodes context state = .error .givenUp after := by
  have stepped : repeatFrom (separatedStep item) ⟨nodes, true⟩ context state =
      .ok ⟨nodes, false⟩ after :=
    repeatFrom_done (by simp [separatedStep, attempt, gaveUp])
  simp [listAfter, completed, stepped]

theorem listAfter_last {item : Parse Node} {nodes : Array Node} {node : Node} {after : ParseState}
    (read : item context state = .ok node after)
    (noComma : (context.tokens.get after.position).kind ≠ .punctuator .comma) :
    listAfter item nodes context state = .ok (nodes.push node) after := by
  have stepped : repeatFrom (separatedStep item) ⟨nodes, true⟩ context state =
      .ok ⟨nodes.push node, true⟩ after :=
    repeatFrom_done (by simp [separatedStep, attempt, read, noComma])
  simp [listAfter, completed, stepped]

theorem listAfter_comma {item : Parse Node} {nodes : Array Node} {node : Node}
    (read : item context state = .ok node (state.movedTo stop))
    (comma : (context.tokens.get stop).kind = .punctuator .comma)
    (forward : state.position ≤ stop) :
    listAfter item nodes context state =
      listAfter item (nodes.push node) context (state.movedTo (stop + 1)) := by
  have inside : stop < context.tokens.body.size :=
    TokenStream.lt_size_of_kind (by simp [comma])
  have stepped : repeatFrom (separatedStep item) ⟨nodes, true⟩ context state =
      repeatFrom (separatedStep item) ⟨nodes.push node, true⟩ context
        (state.movedTo (stop + 1)) := by
    refine repeatFrom_yield (by simp [separatedStep, attempt, read, comma]) ?_
    simp only [ParseState.remaining, TokenStream.remaining, TokenStream.length,
      ParseState.position_movedTo]
    omega
  simp [listAfter, completed, stepped]

theorem callArguments_none
    (closes : (context.tokens.get state.position).kind = .punctuator .closeParen) :
    callArguments deeper context state = .ok #[] state := by
  simp [callArguments, closes]

theorem callArguments_some
    (notClosed : (context.tokens.get state.position).kind ≠ .punctuator .closeParen) :
    callArguments deeper context state = listAfter deeper.assignment #[] context state := by
  simp [callArguments, notClosed, listOf_eq_listAfter]

/-! ## What precedes an operand -/

theorem unaryRule_suffixed
    (notBefore : (context.tokens.get state.position).kind.precedesOperand = false) :
    unaryRule deeper context state = suffixed deeper context state := by
  cases kind : (context.tokens.get state.position).kind <;>
    simp_all [unaryRule, atLabelAddress, TokenKind.precedesOperand]

theorem applied_agrees {unary : UnaryOperator} {operand : Parse Node}
    (notEnd : (context.tokens.get state.position).kind ≠ .endOfFile)
    (inside : Agrees limited diagnostics
      (operand context (state.movedTo (state.position + 1))) (.ok inner (state.movedTo stop))) :
    Agrees limited diagnostics (applied unary operand context state)
      (.ok (.ofChildren (.unary unary) (context.tokens.get state.position).location [inner])
        (state.movedTo stop)) := by
  refine inside.carry ?_ ?_
  · intro same
    simp [applied, notEnd, same]
  · intro after same
    simp [applied, notEnd, same]

theorem unaryRule_increment
    (symbol : (context.tokens.get state.position).kind = .operator .increment) :
    unaryRule deeper context state = applied .stepUp deeper.unary context state := by
  simp [unaryRule, atLabelAddress, symbol]

theorem unaryRule_decrement
    (symbol : (context.tokens.get state.position).kind = .operator .decrement) :
    unaryRule deeper context state = applied .stepDown deeper.unary context state := by
  simp [unaryRule, atLabelAddress, symbol]

theorem unaryRule_castOperator {operator : Operator} {unary : UnaryOperator}
    (symbol : (context.tokens.get state.position).kind = .operator operator)
    (isUnary : castOperator? operator = some unary) :
    unaryRule deeper context state = applied unary deeper.cast context state := by
  cases operator <;> simp [castOperator?] at isUnary <;> subst isUnary <;>
    simp [unaryRule, atLabelAddress, symbol, castOperator?]

theorem unaryRule_labelAddress (gnu : context.dialect.gnu = true)
    (symbol : (context.tokens.get state.position).kind = .operator .logicalAnd)
    (isName : (context.tokens.get (state.position + 1)).kind = .identifier) :
    unaryRule deeper context state =
      .ok (.named .labelAddress (context.tokens.get state.position).location
        (context.tokens.get (state.position + 1)).lexeme)
        (state.movedTo (state.position + 2)) := by
  simp [unaryRule, atLabelAddress, gnu, symbol, isName, labelAddress]

/-- Whether a token begins the name of a type, if typedef names are as in the state. -/
def beginsTypeName (context : ParseContext) (state : ParseState) (token : Token) : Bool :=
  match token.kind with
  | .keyword word => word.beginsType
  | .identifier => context.language.isTypeName state.scopes.isTypedefName token.lexeme
  | _ => false

theorem isTypeStart_apply (token : Token) :
    isTypeStart token context state = .ok (beginsTypeName context state token) state := by
  cases kind : token.kind <;> simp [isTypeStart, beginsTypeName, kind]

theorem atParenthesizedType_apply :
    atParenthesizedType context state =
      .ok (decide ((context.tokens.get state.position).kind = .punctuator .openParen)
        && beginsTypeName context state (context.tokens.get (state.position + 1))) state := by
  by_cases opens : (context.tokens.get state.position).kind = .punctuator .openParen <;>
    simp [atParenthesizedType, opens, isTypeStart_apply]

theorem measure_agrees {ofExpression ofType : NodeKind}
    (notEnd : (context.tokens.get state.position).kind ≠ .endOfFile)
    (noType : atParenthesizedType context (state.movedTo (state.position + 1)) =
      .ok false (state.movedTo (state.position + 1)))
    (inside : Agrees limited diagnostics
      (deeper.unary context (state.movedTo (state.position + 1)))
      (.ok inner (state.movedTo stop))) :
    Agrees limited diagnostics (measure deeper ofExpression ofType context state)
      (.ok (.ofChildren ofExpression (context.tokens.get state.position).location [inner])
        (state.movedTo stop)) := by
  refine inside.carry ?_ ?_
  · intro same
    simp [measure, noType, notEnd, same]
  · intro after same
    simp [measure, noType, notEnd, same]

theorem unaryRule_sizeof
    (word : (context.tokens.get state.position).kind = .keyword .sizeofWord) :
    unaryRule deeper context state =
      measure deeper .sizeofExpression .sizeofType context state := by
  simp [unaryRule, atLabelAddress, word]

theorem unaryRule_alignof
    (word : (context.tokens.get state.position).kind = .keyword .alignofWord) :
    unaryRule deeper context state =
      measure deeper .alignofExpression .alignofType context state := by
  simp [unaryRule, atLabelAddress, word]

theorem castRule_of_noType (noType : atParenthesizedType context state = .ok false state) :
    castRule deeper context state = deeper.unary context state := by
  simp [castRule, noType]

end Productions

end CFrontEnd
