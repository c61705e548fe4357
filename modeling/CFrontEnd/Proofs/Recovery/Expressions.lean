import CFrontEnd.Proofs.Recovery.Declarations
import CFrontEnd.Proofs.Grammar.Operands

/-!
Expressions do not pass a fence, if the productions one level further in do not.
-/

namespace CFrontEnd

open Parse Productions

namespace Fence

variable {β : Type} {context : ParseContext} {fence : Fence context} {known : List TokenKind}
  {deeper : Productions} {Last : β → ParseState → Prop} (inside : deeper.Fenced context)

/-! ## Tokens of operands -/

theorem confined_expectComma : fence.Confined known expectComma :=
  confined_expectPunctuator (by simp)

theorem confined_expectBracketEnd : fence.Confined known expectBracketEnd :=
  confined_expectPunctuator (by simp)

theorem confined_fieldDesignator : fence.Confined known fieldDesignator :=
  leads_bind confined_expectIdentifier fun _ => confined_pure

theorem confined_name : fence.Confined [.identifier] name := by
  refine leads_peekKnown fun token covered => leads_ask asks_isTypeName fun _ => ?_
  refine leads_ite (fun _ => leads_giveUp covered) fun _ => ?_
  exact leads_discard_advance (by simp) confined_pure

theorem confined_labelAddress :
    fence.Confined [.operator .logicalAnd, .identifier] labelAddress :=
  leads_advance (by simp) fun _ _ => leads_advance (by simp) fun _ _ => confined_pure

/-! ## What is seen ahead -/

theorem leads_atParenthesizedType {continuation : Bool → Parse β}
    (succeeds : fence.Leads [.punctuator .openParen] (continuation true) Last)
    (fails : fence.Leads known (continuation false) Last) :
    fence.Leads known (atParenthesizedType >>= continuation) Last :=
  leads_test sees_atParenthesizedType succeeds fails

theorem leads_atLabelAddress {continuation : Bool → Parse β}
    (succeeds : fence.Leads [.operator .logicalAnd, .identifier] (continuation true) Last)
    (fails : fence.Leads known (continuation false) Last) :
    fence.Leads known (atLabelAddress >>= continuation) Last :=
  leads_test sees_atLabelAddress succeeds fails

theorem leads_atColonDesignator {continuation : Bool → Parse β}
    (succeeds : fence.Leads [.identifier, .punctuator .colon] (continuation true) Last)
    (fails : fence.Leads known (continuation false) Last) :
    fence.Leads known (atColonDesignator >>= continuation) Last :=
  leads_test sees_atColonDesignator succeeds fails

theorem confined_listOf {item : Parse Node} (isConfined : fence.Confined [] item) :
    fence.Confined known (listOf item) :=
  confined_completed (leads_separatedItems isConfined)

section Primary

include inside

theorem confined_parenthesized :
    fence.Confined [.punctuator .openParen] (parenthesized deeper) := by
  refine leads_advance (by simp) fun _ _ => leads_ask asks_isGnu fun _ => ?_
  refine leads_ask asks_atPunctuator fun _ => leads_ite (fun _ => ?_) fun _ => ?_
  · refine leads_bind (confined_block inside) fun _ => ?_
    exact leads_bind (confined_expectPunctuator (by simp)) fun _ => confined_pure
  · refine leads_bind (confined_expression inside) fun _ => ?_
    exact leads_bind confined_expectClosingParen fun _ => confined_pure

theorem confined_genericAssociation : fence.Confined known (genericAssociation deeper) := by
  refine leads_location fun _ _ => leads_consume (by simp) ?_ ?_
  · refine leads_bind (confined_expectPunctuator (by simp)) fun _ => ?_
    exact leads_bind inside.assignment fun _ => confined_pure
  · refine leads_bind (confined_typeName inside) fun _ => ?_
    refine leads_bind (confined_expectPunctuator (by simp)) fun _ => ?_
    exact leads_bind inside.assignment fun _ => confined_pure

theorem confined_genericSelection {word : Keyword} :
    fence.Confined [.keyword word] (genericSelection deeper) := by
  refine leads_advance (by simp) fun _ _ => leads_bind (confined_expectPunctuator (by simp)) fun _ => ?_
  refine leads_bind inside.assignment fun _ => leads_bind confined_expectComma fun _ => ?_
  refine leads_bind (confined_listOf (confined_genericAssociation inside)) fun _ => ?_
  exact leads_bind confined_expectClosingParen fun _ => confined_pure

theorem confined_builtinVaArg {word : Keyword} :
    fence.Confined [.keyword word] (builtinVaArg deeper) := by
  refine leads_advance (by simp) fun _ _ => leads_bind (confined_expectPunctuator (by simp)) fun _ => ?_
  refine leads_bind inside.assignment fun _ => leads_bind confined_expectComma fun _ => ?_
  refine leads_bind (confined_typeName inside) fun _ => ?_
  exact leads_bind confined_expectClosingParen fun _ => confined_pure

theorem confined_builtinTypesCompatible {word : Keyword} :
    fence.Confined [.keyword word] (builtinTypesCompatible deeper) := by
  refine leads_advance (by simp) fun _ _ => leads_bind (confined_expectPunctuator (by simp)) fun _ => ?_
  refine leads_bind (confined_typeName inside) fun _ => leads_bind confined_expectComma fun _ => ?_
  refine leads_bind (confined_typeName inside) fun _ => ?_
  exact leads_bind confined_expectClosingParen fun _ => confined_pure

theorem confined_memberPath : fence.Confined known (memberPath deeper) := by
  refine leads_bind confined_fieldDesignator fun _ => confined_iterate fun _ => ?_
  refine leads_location fun _ _ => leads_consume (by simp) ?_ (leads_consumePunctuator (by simp) ?_ ?_)
  · exact leads_bind confined_fieldDesignator fun _ => confined_pure
  · refine leads_bind (confined_expression inside) fun _ => ?_
    exact leads_bind confined_expectBracketEnd fun _ => confined_pure
  · exact confined_pure

theorem confined_builtinOffsetof {word : Keyword} :
    fence.Confined [.keyword word] (builtinOffsetof deeper) := by
  refine leads_advance (by simp) fun _ _ => leads_bind (confined_expectPunctuator (by simp)) fun _ => ?_
  refine leads_bind (confined_typeName inside) fun _ => leads_bind confined_expectComma fun _ => ?_
  refine leads_bind (confined_memberPath inside) fun _ => ?_
  exact leads_bind confined_expectClosingParen fun _ => confined_pure

theorem confined_primary : fence.Confined known (primary deeper) := by
  refine leads_peek fun token _ => ?_
  split
  · exact .of_kind ‹_› (confined_name)
  · exact confined_stringLiteral
  · exact .of_kind ‹_› (leads_advance (by simp) fun _ _ => confined_pure)
  · exact .of_kind ‹_› (leads_advance (by simp) fun _ _ => confined_pure)
  · exact .of_kind ‹_› (leads_advance (by simp) fun _ _ => confined_pure)
  · exact .of_kind ‹_› (leads_advance (by simp) fun _ _ => confined_pure)
  · exact .of_kind ‹_› (confined_parenthesized inside)
  · exact .of_kind ‹_› (confined_genericSelection inside)
  · exact .of_kind ‹_› (confined_builtinVaArg inside)
  · exact .of_kind ‹_› (confined_builtinOffsetof inside)
  · exact .of_kind ‹_› (confined_builtinTypesCompatible inside)
  · exact leads_unexpected

/-! ## Operands -/

theorem confined_addSuffix {left : Node} : fence.Confined known (addSuffix deeper left) := by
  refine leads_peek fun token _ => ?_
  dsimp only
  split
  · refine .of_kind ‹_› ?_
    refine leads_discard_advance (by simp) (leads_bind (confined_expression inside) fun _ => ?_)
    exact leads_bind confined_expectBracketEnd fun _ => confined_pure
  · refine .of_kind ‹_› ?_
    refine leads_discard_advance (by simp) (leads_bind ?_ fun _ => ?_)
    · exact leads_atPunctuator confined_pure (confined_listOf inside.assignment)
    · exact leads_bind (confined_expectPunctuator (by simp)) fun _ => confined_pure
  · refine .of_kind ‹_› ?_
    refine leads_discard_advance (by simp) ?_
    exact leads_bind confined_expectIdentifier fun _ => confined_pure
  · refine .of_kind ‹_› ?_
    refine leads_discard_advance (by simp) ?_
    exact leads_bind confined_expectIdentifier fun _ => confined_pure
  · exact .of_kind ‹_› (leads_discard_advance (by simp) confined_pure)
  · exact .of_kind ‹_› (leads_discard_advance (by simp) confined_pure)
  · exact confined_pure

theorem confined_withSuffixes {left : Node} : fence.Confined known (withSuffixes deeper left) :=
  confined_iterate fun _ => confined_addSuffix inside

theorem confined_compoundLiteral {place : SourceLocation} {type : Node} :
    fence.Confined known (compoundLiteral deeper place type) :=
  leads_bind inside.initializerList fun _ => confined_withSuffixes inside

theorem confined_suffixed : fence.Confined known (suffixed deeper) :=
  leads_bind (confined_primary inside) fun _ => confined_withSuffixes inside

theorem confined_measure {word : Keyword} {ofExpression ofType : NodeKind} :
    fence.Confined [.keyword word] (measure deeper ofExpression ofType) := by
  refine leads_advance (by simp) fun _ _ => leads_atParenthesizedType ?_ ?_
  · refine leads_location fun _ _ => leads_bind (confined_parenthesizedTypeName inside) fun _ => ?_
    refine leads_atPunctuator ?_ confined_pure
    exact leads_bind (confined_compoundLiteral inside) fun _ => confined_pure
  · exact leads_bind inside.unary fun _ => confined_pure

omit inside in
theorem confined_applied {symbol : Operator} {operator : UnaryOperator} {operand : Parse Node}
    (isConfined : fence.Confined [] operand) :
    fence.Confined [.operator symbol] (applied operator operand) :=
  leads_advance (by simp) fun _ _ => leads_bind isConfined fun _ => confined_pure

theorem confined_unaryRule : fence.Confined known (unaryRule deeper) := by
  refine leads_atLabelAddress confined_labelAddress (leads_peek fun token _ => ?_)
  split
  · exact .of_kind ‹_› (confined_applied inside.unary)
  · exact .of_kind ‹_› (confined_applied inside.unary)
  · refine .of_kind ‹_› ?_
    split
    · exact confined_applied inside.cast
    · exact confined_suffixed inside
  · exact .of_kind ‹_› (confined_measure inside)
  · exact .of_kind ‹_› (confined_measure inside)
  · exact .of_kind ‹_› (leads_discard_advance (by simp) inside.cast)
  · exact confined_suffixed inside

theorem confined_castRule : fence.Confined known (castRule deeper) := by
  refine leads_atParenthesizedType ?_ inside.unary
  refine leads_location fun _ _ => leads_bind (confined_parenthesizedTypeName inside) fun _ => ?_
  refine leads_atPunctuator (confined_compoundLiteral inside) ?_
  exact leads_bind inside.cast fun _ => confined_pure

/-! ## Operators -/

theorem confined_binaryWithin {steps least : Nat} :
    fence.Confined known (binaryWithin deeper steps least) := by
  induction steps generalizing known least with
  | zero => exact inside.cast
  | succ steps ih =>
    refine leads_bind inside.cast fun _ => confined_iterate fun _ => ?_
    refine leads_find finds_atBinary? (fun _ operator => ?_) confined_pure
    refine leads_location fun _ _ => leads_discard_advance (by simp) ?_
    exact leads_bind ih fun _ => confined_pure

theorem confined_binary : fence.Confined known (binary deeper) := by
  intro state holds shows
  have within : fence.Confines
      (binaryWithin deeper (state.remaining context) Precedence.logicalOr.level) state _ :=
    confined_binaryWithin inside state holds shows
  exact ⟨within.ok, within.error⟩

theorem confined_conditionalRule : fence.Confined known (conditionalRule deeper) := by
  refine leads_bind (confined_binary inside) fun _ => leads_location fun _ _ => ?_
  refine leads_consume (by simp) (leads_consumeInGnu (by simp) ?_ ?_) confined_pure
  · exact leads_bind inside.conditional fun _ => confined_pure
  · refine leads_bind (confined_expression inside) fun _ => ?_
    refine leads_bind (confined_expectPunctuator (by simp)) fun _ => ?_
    exact leads_bind inside.conditional fun _ => confined_pure

theorem confined_assignmentRule : fence.Confined known (assignmentRule deeper) := by
  refine leads_bind inside.conditional fun _ => leads_find finds_atAssignment?
    (fun _ operator => ?_) confined_pure
  refine leads_location fun _ _ => leads_discard_advance (by simp) ?_
  exact leads_bind inside.assignment fun _ => confined_pure

/-! ## Initializer lists -/

theorem confined_indexDesignator {place : SourceLocation} :
    fence.Confined known (indexDesignator deeper place) := by
  refine leads_bind inside.conditional fun _ => leads_consumePunctuator (by simp) ?_ ?_
  · refine leads_bind inside.conditional fun _ => leads_bind confined_pure fun _ => ?_
    exact leads_bind confined_expectBracketEnd fun _ => confined_pure
  · refine leads_bind confined_pure fun _ => ?_
    exact leads_bind confined_expectBracketEnd fun _ => confined_pure

theorem confined_designators : fence.Confined known (designators deeper) := by
  refine confined_iterate fun _ => leads_location fun _ _ => leads_consume (by simp) ?_ ?_
  · exact leads_bind confined_fieldDesignator fun _ => confined_pure
  · refine leads_consumePunctuator (by simp) ?_ confined_pure
    exact leads_bind (confined_indexDesignator inside) fun _ => confined_pure

theorem confined_initializerItem : fence.Confined known (initializerItem deeper) := by
  refine leads_location fun _ _ => leads_atColonDesignator ?_ ?_
  · simp only [if_true, fieldDesignator, bind_assoc, pure_bind]
    refine leads_expectKnown (by simp) fun _ => leads_discard_advance (by simp) ?_
    exact leads_bind (confined_initializer inside) fun _ => confined_pure
  · refine leads_bind (confined_designators inside) fun _ => ?_
    refine leads_ite (fun _ => confined_initializer inside) fun _ => ?_
    refine leads_bind (confined_discard (confined_expect (by simp))) fun _ => ?_
    exact leads_bind (confined_initializer inside) fun _ => confined_pure

theorem confined_initializerListRule : fence.Confined known (initializerListRule deeper) := by
  refine leads_expectBraced (fun inner _ => confined_iterate fun _ => ?_) fun _ _ => confined_pure
  refine leads_atPunctuator confined_pure (leads_bind (confined_initializerItem inside) fun _ => ?_)
  exact leads_consumePunctuator (by simp) confined_pure confined_pure

end Primary

end Fence

end CFrontEnd
