import CFrontEnd.Proofs.Conduct.Declarations
import CFrontEnd.Grammar.Rules.Expressions

/-!
Expressions. Every level of them uses up a token, and so does every step of a repetition in them, so that
the operators between operands are bounded by the tokens that are left.
-/

namespace CFrontEnd

open Parse Productions

variable {β : Type} {context : ParseContext} {known : List TokenKind} {deeper : Productions}
  {last : Use β} {count : Nat} (inside : deeper.Conducted context)

/-! ## Tokens of operands -/

theorem proceeds_expectComma : Proceeds context known expectComma 1 := proceeds_expectPunctuator

theorem proceeds_expectBracketEnd : Proceeds context known expectBracketEnd 1 :=
  proceeds_expectPunctuator

theorem proceeds_fieldDesignator : Proceeds context known fieldDesignator 1 :=
  leads_bind proceeds_expectIdentifier fun _ => leads_pure rfl

theorem proceeds_name (begins : Proceeds context known advance count) :
    Proceeds context known name count := by
  refine leads_ask asks_peek fun token => leads_ask asks_isTypeName fun _ => ?_
  refine leads_ite (fun _ => leads_giveUp) fun _ => ?_
  exact proceeds_first (proceeds_discard begins) fun _ => proceeds_pure

theorem proceeds_literal {kind : LiteralKind} (begins : Proceeds context known advance count) :
    Proceeds context known (literal kind) count :=
  proceeds_first begins fun _ => proceeds_pure

theorem proceeds_truthValue {value : Bool} (begins : Proceeds context known advance count) :
    Proceeds context known (truthValue value) count :=
  proceeds_first begins fun _ => proceeds_pure

theorem proceeds_nullPointer (begins : Proceeds context known advance count) :
    Proceeds context known nullPointer count :=
  proceeds_first begins fun _ => proceeds_pure

theorem proceeds_labelAddress (begins : Proceeds context known advance count) :
    Proceeds context known labelAddress count :=
  proceeds_first begins fun _ => leads_bind proceeds_advanceAny fun _ => leads_pure rfl

section Primary

include inside

theorem proceeds_parenthesized : Proceeds context known (parenthesized deeper) 1 := by
  refine leads_bind proceeds_advanceAny fun _ => leads_ask asks_isGnu fun _ => ?_
  refine leads_ask asks_atPunctuator fun _ => leads_ite (fun _ => ?_) fun _ => ?_
  · refine leads_bind (proceeds_block inside) fun _ => ?_
    exact leads_bind proceeds_expectPunctuator fun _ => leads_pure rfl
  · refine leads_bind (proceeds_expression inside) fun _ => ?_
    exact leads_bind proceeds_expectClosingParen fun _ => leads_pure rfl

theorem proceeds_genericAssociation : Proceeds context known (genericAssociation deeper) 1 := by
  refine leads_location fun _ => leads_consume (by simp) ?_ ?_
  · refine leads_bind proceeds_expectPunctuator fun _ => ?_
    exact leads_bind inside.assignment fun _ => leads_pure rfl
  · refine leads_bind (proceeds_typeName inside) fun _ => ?_
    refine leads_bind proceeds_expectPunctuator fun _ => ?_
    exact leads_bind inside.assignment fun _ => leads_pure rfl

theorem proceeds_genericSelection : Proceeds context known (genericSelection deeper) 1 := by
  refine leads_bind proceeds_advanceAny fun _ => leads_bind proceeds_expectPunctuator fun _ => ?_
  refine leads_bind inside.assignment fun _ => leads_bind proceeds_expectComma fun _ => ?_
  refine leads_bind (proceeds_listOf (proceeds_genericAssociation inside)) fun _ => ?_
  exact leads_bind proceeds_expectClosingParen fun _ => leads_pure rfl

theorem proceeds_builtinVaArg : Proceeds context known (builtinVaArg deeper) 1 := by
  refine leads_bind proceeds_advanceAny fun _ => leads_bind proceeds_expectPunctuator fun _ => ?_
  refine leads_bind inside.assignment fun _ => leads_bind proceeds_expectComma fun _ => ?_
  refine leads_bind (proceeds_typeName inside) fun _ => ?_
  exact leads_bind proceeds_expectClosingParen fun _ => leads_pure rfl

theorem proceeds_builtinTypesCompatible :
    Proceeds context known (builtinTypesCompatible deeper) 1 := by
  refine leads_bind proceeds_advanceAny fun _ => leads_bind proceeds_expectPunctuator fun _ => ?_
  refine leads_bind (proceeds_typeName inside) fun _ => leads_bind proceeds_expectComma fun _ => ?_
  refine leads_bind (proceeds_typeName inside) fun _ => ?_
  exact leads_bind proceeds_expectClosingParen fun _ => leads_pure rfl

theorem proceeds_memberPath : Proceeds context known (memberPath deeper) 1 := by
  refine leads_bind proceeds_fieldDesignator fun _ => proceeds_iterate fun _ => leads_location
    fun _ => ?_
  refine leads_consume (by simp) ?_ (leads_consumePunctuator ?_ (leads_pure rfl))
  · exact leads_bind proceeds_fieldDesignator fun _ => leads_pure rfl
  · refine leads_bind (proceeds_expression inside) fun _ => ?_
    exact leads_bind proceeds_expectBracketEnd fun _ => leads_pure rfl

theorem proceeds_builtinOffsetof : Proceeds context known (builtinOffsetof deeper) 1 := by
  refine leads_bind proceeds_advanceAny fun _ => leads_bind proceeds_expectPunctuator fun _ => ?_
  refine leads_bind (proceeds_typeName inside) fun _ => leads_bind proceeds_expectComma fun _ => ?_
  refine leads_bind (proceeds_memberPath inside) fun _ => ?_
  exact leads_bind proceeds_expectClosingParen fun _ => leads_pure rfl

theorem proceeds_primary : Proceeds context known (primary deeper) 1 := by
  refine leads_peek fun token => ?_
  split
  · exact .of_kind ‹_› (proceeds_name (proceeds_advance (by simp)))
  · exact proceeds_stringLiteral
  · exact .of_kind ‹_› (proceeds_literal (proceeds_advance (by simp)))
  · exact .of_kind ‹_› (proceeds_truthValue (proceeds_advance (by simp)))
  · exact .of_kind ‹_› (proceeds_truthValue (proceeds_advance (by simp)))
  · exact .of_kind ‹_› (proceeds_nullPointer (proceeds_advance (by simp)))
  · exact proceeds_parenthesized inside
  · exact proceeds_genericSelection inside
  · exact proceeds_builtinVaArg inside
  · exact proceeds_builtinOffsetof inside
  · exact proceeds_builtinTypesCompatible inside
  · exact leads_unexpected

/-! ## Operands -/

theorem proceeds_callArguments : Proceeds context known (callArguments deeper) 0 := by
  refine leads_ask asks_atPunctuator fun _ => leads_ite (fun _ => proceeds_pure) fun _ => ?_
  exact (proceeds_listOf inside.assignment).any

theorem leads_addSuffix {left : Node} :
    Leads context known (addSuffix deeper left) (Use.atLeast 0).step := by
  refine leads_peek fun token => ?_
  dsimp only
  split
  · refine .of_kind ‹_› (leads_discard_advance (by simp) ?_)
    refine leads_bind (proceeds_expression inside) fun _ => ?_
    exact leads_bind proceeds_expectBracketEnd fun _ => leads_pure rfl
  · refine .of_kind ‹_› (leads_discard_advance (by simp) ?_)
    refine leads_bind (proceeds_callArguments inside) fun _ => ?_
    exact leads_bind proceeds_expectPunctuator fun _ => leads_pure rfl
  · refine .of_kind ‹_› (leads_discard_advance (by simp) ?_)
    exact leads_bind proceeds_expectIdentifier fun _ => leads_pure rfl
  · refine .of_kind ‹_› (leads_discard_advance (by simp) ?_)
    exact leads_bind proceeds_expectIdentifier fun _ => leads_pure rfl
  · exact .of_kind ‹_› (leads_discard_advance (by simp) (leads_pure rfl))
  · exact .of_kind ‹_› (leads_discard_advance (by simp) (leads_pure rfl))
  · exact leads_pure rfl

theorem proceeds_withSuffixes {left : Node} :
    Proceeds context known (withSuffixes deeper left) 0 :=
  proceeds_iterate fun _ => leads_addSuffix inside

theorem proceeds_compoundLiteral {place : SourceLocation} {type : Node} :
    Proceeds context known (compoundLiteral deeper place type) 1 :=
  proceeds_first inside.initializerList fun _ => proceeds_withSuffixes inside

theorem proceeds_suffixed : Proceeds context known (suffixed deeper) 1 :=
  proceeds_first (proceeds_primary inside) fun _ => proceeds_withSuffixes inside

theorem proceeds_measure {ofExpression ofType : NodeKind} :
    Proceeds context known (measure deeper ofExpression ofType) 1 := by
  refine leads_bind proceeds_advanceAny fun _ => leads_test sees_atParenthesizedType ?_ ?_
  · refine leads_location fun _ => leads_bind (proceeds_parenthesizedTypeName inside) fun _ => ?_
    refine leads_ask asks_atPunctuator fun _ => leads_ite (fun _ => ?_) fun _ => leads_pure rfl
    exact leads_bind (proceeds_compoundLiteral inside) fun _ => leads_pure rfl
  · exact leads_bind inside.unary fun _ => leads_pure rfl

omit inside in
theorem proceeds_applied {operator : UnaryOperator} {operand : Parse Node}
    (operandProceeds : Proceeds context [] operand 1) :
    Proceeds context known (applied operator operand) 1 :=
  leads_bind proceeds_advanceAny fun _ => leads_bind operandProceeds fun _ => leads_pure rfl

theorem proceeds_unaryRule : Proceeds context known (unaryRule deeper) 1 := by
  refine leads_test sees_atLabelAddress (proceeds_labelAddress (proceeds_advance (by simp))) ?_
  refine leads_ask asks_peek fun token => ?_
  split
  · exact proceeds_applied inside.unary
  · exact proceeds_applied inside.unary
  · split
    · exact proceeds_applied inside.cast
    · exact proceeds_suffixed inside
  · exact proceeds_measure inside
  · exact proceeds_measure inside
  · exact leads_bind (proceeds_discard proceeds_advanceAny) fun _ => inside.cast
  · exact proceeds_suffixed inside

theorem proceeds_castRule : Proceeds context known (castRule deeper) 1 := by
  refine leads_test sees_atParenthesizedType (leads_location fun _ => ?_) inside.unary
  refine leads_bind (proceeds_parenthesizedTypeName inside) fun _ => ?_
  refine leads_ask asks_atPunctuator fun _ => leads_ite (fun _ => ?_) fun _ => ?_
  · exact (proceeds_compoundLiteral inside).any
  · exact leads_bind inside.cast fun _ => leads_pure rfl

/-! ## Operators -/

theorem proceeds_binaryWithin {steps least : Nat} :
    Proceeds context known (binaryWithin deeper steps least) 1 := by
  induction steps generalizing known least with
  | zero => exact inside.cast
  | succ steps ih =>
    refine proceeds_first inside.cast fun _ => proceeds_iterate fun _ => ?_
    -- Each operator is a token, and so the repetition goes forward; the operand behind it has a
    -- step less.
    refine leads_find finds_atBinary? (fun _ operator => ?_) (leads_pure rfl)
    refine leads_location fun _ => leads_discard_advance (by simp) ?_
    exact leads_bind ih fun _ => leads_pure rfl

theorem proceeds_binary : Proceeds context known (binary deeper) 1 := by
  intro state shows
  have same : binary deeper context state =
      binaryWithin deeper (state.remaining context) Precedence.logicalOr.level context state := rfl
  exact .of_eq same (proceeds_binaryWithin inside state shows)

theorem proceeds_conditionalRule : Proceeds context known (conditionalRule deeper) 1 := by
  refine leads_bind (proceeds_binary inside) fun _ => leads_location fun _ => ?_
  refine leads_consume (by simp) (leads_consumeInGnu (by simp) ?_ ?_) (leads_pure rfl)
  · exact leads_bind inside.conditional fun _ => leads_pure rfl
  · refine leads_bind (proceeds_expression inside) fun _ => ?_
    refine leads_bind proceeds_expectPunctuator fun _ => ?_
    exact leads_bind inside.conditional fun _ => leads_pure rfl

theorem proceeds_assignmentRule : Proceeds context known (assignmentRule deeper) 1 := by
  refine leads_bind inside.conditional fun _ => ?_
  refine leads_find finds_atAssignment? (fun _ operator => ?_) (leads_pure rfl)
  refine leads_location fun _ => leads_discard_advance (by simp) ?_
  exact leads_bind inside.assignment fun _ => leads_pure rfl

/-! ## Initializer lists -/

theorem proceeds_indexDesignator {place : SourceLocation} :
    Proceeds context known (indexDesignator deeper place) 1 := by
  refine leads_bind inside.conditional fun _ => leads_consumePunctuator ?_ ?_
  · refine leads_bind inside.conditional fun _ => leads_bind proceeds_pure fun _ => ?_
    exact leads_bind proceeds_expectBracketEnd fun _ => leads_pure rfl
  · refine leads_bind proceeds_pure fun _ => ?_
    exact leads_bind proceeds_expectBracketEnd fun _ => leads_pure rfl

theorem proceeds_designators : Proceeds context known (designators deeper) 0 := by
  refine proceeds_iterate fun _ => leads_location fun _ => leads_consume (by simp) ?_ ?_
  · exact leads_bind proceeds_fieldDesignator fun _ => leads_pure rfl
  · refine leads_consumePunctuator ?_ (leads_pure rfl)
    exact leads_bind (proceeds_indexDesignator inside) fun _ => leads_pure rfl

theorem proceeds_initializerItem : Proceeds context known (initializerItem deeper) 1 := by
  refine leads_location fun _ => leads_test sees_atColonDesignator ?_ ?_
  · refine leads_bind proceeds_fieldDesignator fun _ => ?_
    refine leads_bind (proceeds_discard proceeds_advanceAny) fun _ => ?_
    exact leads_bind (proceeds_initializer inside) fun _ => leads_pure rfl
  · refine leads_bind (proceeds_designators inside) fun _ => ?_
    refine leads_ite (fun _ => proceeds_initializer inside) fun _ => ?_
    refine leads_bind (proceeds_discard (proceeds_expect (by simp))) fun _ => ?_
    exact leads_bind (proceeds_initializer inside) fun _ => leads_pure rfl

theorem proceeds_initializerListRule : Proceeds context known (initializerListRule deeper) 1 := by
  refine leads_bind (proceeds_expect (by simp)) fun _ => leads_bind (proceeds_iterate fun _ => ?_)
    fun _ => ?_
  · refine leads_ask asks_atPunctuator fun _ => leads_ite (fun _ => leads_pure rfl) fun _ => ?_
    refine leads_bind (proceeds_initializerItem inside) fun _ => ?_
    exact leads_consumePunctuator (leads_pure rfl) (leads_pure rfl)
  · exact leads_bind proceeds_expectPunctuator fun _ => leads_pure rfl

end Primary

end CFrontEnd
