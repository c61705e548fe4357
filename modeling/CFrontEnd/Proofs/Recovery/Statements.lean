import CFrontEnd.Proofs.Recovery.Expressions
import CFrontEnd.Grammar.Start

/-!
Statements do not pass the brace that closes the block they are in, and so no production of any level
passes a fence.
-/

namespace CFrontEnd

open Parse Productions

namespace Fence

variable {β : Type} {context : ParseContext} {fence : Fence context} {known : List TokenKind}
  {deeper : Productions} {Last : β → ParseState → Prop}

theorem leads_atLabel {continuation : Bool → Parse β}
    (succeeds : fence.Leads [.identifier, .punctuator .colon] (continuation true) Last)
    (fails : fence.Leads known (continuation false) Last) :
    fence.Leads known (atLabel >>= continuation) Last :=
  leads_test sees_atLabel succeeds fails

theorem confined_emptyStatement (isBrace : fence.mark = .closeBrace) :
    fence.Confined [.punctuator .semicolon] emptyStatement :=
  leads_advance (admits_semicolon isBrace) fun _ _ => confined_pure

theorem confined_jump {word : Keyword} {kind : NodeKind} (isBrace : fence.mark = .closeBrace) :
    fence.Confined [.keyword word] (jump kind) :=
  leads_advance (by simp) fun _ _ => leads_bind (confined_expectSemicolon isBrace)
    fun _ => confined_pure

variable (inside : deeper.Fenced context) (isBrace : fence.mark = .closeBrace)

section Parts

include inside

theorem confined_parenthesizedCondition {word : String} :
    fence.Confined known (parenthesizedCondition deeper word) := by
  refine leads_bind (confined_expectPunctuator (by simp)) fun _ => ?_
  refine leads_bind (confined_expression inside) fun _ => ?_
  exact leads_bind confined_expectClosingParen fun _ => confined_pure

theorem confined_optionalExpression {ending : Punctuator} :
    fence.Confined known (optionalExpression deeper ending) := by
  refine leads_atPunctuator ?_ (confined_expression inside)
  exact leads_location fun _ _ => confined_pure

include isBrace

theorem confined_labelBody : fence.Confined known (labelBody deeper) := by
  refine leads_atPunctuator (leads_location fun _ _ => confined_pure) ?_
  refine leads_ask asks_startsDeclaration fun _ => ?_
  exact leads_ite (fun _ => confined_groupedDeclaration inside isBrace)
    fun _ => inside.statement isBrace

theorem confined_forBeginning : fence.Confined known (forBeginning deeper) := by
  refine leads_ask asks_atPunctuator fun _ => leads_ask asks_startsDeclaration fun _ => ?_
  refine leads_ite (fun _ => confined_groupedDeclaration inside isBrace) fun _ => ?_
  refine leads_bind (confined_optionalExpression inside) fun _ => ?_
  exact leads_bind (confined_expectPunctuator (admits_semicolon isBrace)) fun _ => confined_pure

/-! ## Statements by their first word -/

theorem confined_ifStatement {word : Keyword} :
    fence.Confined [.keyword word] (ifStatement deeper) := by
  refine leads_advance (by simp) fun _ _ => leads_bind (confined_parenthesizedCondition inside)
    fun _ => ?_
  refine leads_bind (inside.statement isBrace) fun _ => leads_consumed (by simp) fun _ => ?_
  exact leads_optional (fun _ => inside.statement isBrace) fun _ => confined_pure

theorem confined_whileLoop {word : Keyword} : fence.Confined [.keyword word] (whileLoop deeper) := by
  refine leads_advance (by simp) fun _ _ => leads_bind (confined_parenthesizedCondition inside)
    fun _ => ?_
  exact leads_bind (inside.statement isBrace) fun _ => confined_pure

theorem confined_doWhileLoop {word : Keyword} :
    fence.Confined [.keyword word] (doWhileLoop deeper) := by
  refine leads_advance (by simp) fun _ _ => leads_bind (inside.statement isBrace) fun _ => ?_
  refine leads_bind (confined_discard (confined_expect (by simp))) fun _ => ?_
  refine leads_bind (confined_parenthesizedCondition inside) fun _ => ?_
  exact leads_bind (confined_expectSemicolon isBrace) fun _ => confined_pure

theorem confined_forLoop {word : Keyword} : fence.Confined [.keyword word] (forLoop deeper) := by
  refine leads_advance (by simp) fun _ _ => confined_inNewScope ?_
  refine leads_bind (confined_expectPunctuator (by simp)) fun _ => ?_
  refine leads_bind (confined_forBeginning inside isBrace) fun _ => ?_
  refine leads_bind (confined_optionalExpression inside) fun _ => ?_
  refine leads_bind (confined_expectPunctuator (admits_semicolon isBrace)) fun _ => ?_
  refine leads_bind (confined_optionalExpression inside) fun _ => ?_
  refine leads_bind confined_expectClosingParen fun _ => ?_
  exact leads_bind (inside.statement isBrace) fun _ => confined_pure

theorem confined_switchStatement {word : Keyword} :
    fence.Confined [.keyword word] (switchStatement deeper) := by
  refine leads_advance (by simp) fun _ _ => leads_bind (confined_parenthesizedCondition inside)
    fun _ => ?_
  exact leads_bind (inside.statement isBrace) fun _ => confined_pure

theorem confined_caseLabel {word : Keyword} : fence.Confined [.keyword word] (caseLabel deeper) := by
  refine leads_advance (by simp) fun _ _ => leads_bind inside.conditional fun _ => ?_
  refine leads_bind (confined_consumeInGnu (by simp)) fun _ => ?_
  refine leads_optional (fun _ => inside.conditional) fun _ => ?_
  refine leads_bind (confined_expectPunctuator (by simp)) fun _ => ?_
  exact leads_bind (confined_labelBody inside isBrace) fun _ => confined_pure

theorem confined_defaultLabel {word : Keyword} :
    fence.Confined [.keyword word] (defaultLabel deeper) := by
  refine leads_advance (by simp) fun _ _ => leads_bind (confined_expectPunctuator (by simp)) fun _ => ?_
  exact leads_bind (confined_labelBody inside isBrace) fun _ => confined_pure

theorem confined_returnStatement {word : Keyword} :
    fence.Confined [.keyword word] (returnStatement deeper) := by
  refine leads_advance (by simp) fun _ _ => leads_ask asks_atPunctuator fun _ => ?_
  refine leads_either (fun _ => confined_pure) (fun _ => confined_map (confined_expression inside))
    fun _ => ?_
  exact leads_bind (confined_expectSemicolon isBrace) fun _ => confined_pure

theorem confined_gotoStatement {word : Keyword} :
    fence.Confined [.keyword word] (gotoStatement deeper) := by
  refine leads_advance (by simp) fun _ _ => leads_consumeInGnu (by simp) ?_ ?_
  · refine leads_bind (confined_expression inside) fun _ => leads_bind confined_pure fun _ => ?_
    exact leads_bind (confined_expectSemicolon isBrace) fun _ => confined_pure
  · refine leads_bind confined_expectIdentifier fun _ => leads_bind confined_pure fun _ => ?_
    exact leads_bind (confined_expectSemicolon isBrace) fun _ => confined_pure

/-! ## Other statements -/

theorem confined_labeledStatement :
    fence.Confined [.identifier, .punctuator .colon] (labeledStatement deeper) := by
  refine leads_advance (by simp) fun _ _ => leads_discard_advance (by simp) ?_
  refine leads_bind confined_skipAttributes fun _ => ?_
  exact leads_bind (confined_labelBody inside isBrace) fun _ => confined_pure

theorem confined_expressionStatement : fence.Confined known (expressionStatement deeper) := by
  refine leads_location fun _ _ => leads_bind (confined_expression inside) fun _ => ?_
  exact leads_bind (confined_expectSemicolon isBrace) fun _ => confined_pure

theorem confined_statementRule : fence.Confined known (statementRule deeper) := by
  refine leads_bind confined_skipAttributes fun _ => leads_peek fun token _ => ?_
  split
  · exact .of_kind ‹_› (confined_block inside)
  · exact .of_kind ‹_› (confined_emptyStatement isBrace)
  · exact .of_kind ‹_› (confined_ifStatement inside isBrace)
  · exact .of_kind ‹_› (confined_whileLoop inside isBrace)
  · exact .of_kind ‹_› (confined_doWhileLoop inside isBrace)
  · exact .of_kind ‹_› (confined_forLoop inside isBrace)
  · exact .of_kind ‹_› (confined_switchStatement inside isBrace)
  · exact .of_kind ‹_› (confined_caseLabel inside isBrace)
  · exact .of_kind ‹_› (confined_defaultLabel inside isBrace)
  · exact .of_kind ‹_› (confined_returnStatement inside isBrace)
  · exact .of_kind ‹_› (confined_jump isBrace)
  · exact .of_kind ‹_› (confined_jump isBrace)
  · exact .of_kind ‹_› (confined_gotoStatement inside isBrace)
  · exact .of_kind ‹_› ((leads_assembly inside).confined isBrace)
  · exact leads_atLabel (confined_labeledStatement inside isBrace)
      (confined_expressionStatement inside isBrace)

end Parts

end Fence

namespace Productions

variable {context : ParseContext} {deeper : Productions}

/-- What no production passes one level further in is passed by none of the rules. -/
theorem Fenced.rules (inside : deeper.Fenced context) : (rules deeper).Fenced context where
  assignment := Fence.confined_assignmentRule inside
  conditional := Fence.confined_conditionalRule inside
  cast := Fence.confined_castRule inside
  unary := Fence.confined_unaryRule inside
  initializerList := Fence.confined_initializerListRule inside
  statement := Fence.confined_statementRule inside
  specifiers _ := Fence.leads_specifiersRule inside
  declarator _ := Fence.confined_declaratorRule inside
  named := Fence.leads_declaratorRule inside

theorem fenced_exhausted : exhausted.Fenced context where
  assignment := Fence.leads_tooDeep
  conditional := Fence.leads_tooDeep
  cast := Fence.leads_tooDeep
  unary := Fence.leads_tooDeep
  initializerList := Fence.leads_tooDeep
  statement _ := Fence.leads_tooDeep
  specifiers _ := Fence.leads_tooDeep
  declarator _ := Fence.leads_tooDeep
  named := Fence.leads_tooDeep

theorem fenced_ofLevels (levels : Nat) : (ofLevels levels).Fenced context := by
  induction levels with
  | zero => exact fenced_exhausted
  | succ levels ih => exact ih.rules

end Productions

end CFrontEnd
