import CFrontEnd.Proofs.Conduct.Expressions
import CFrontEnd.Grammar.Start

/-!
Statements, and with them the productions of every level: what holds of those one level further in holds
of the rules that are made of them.
-/

namespace CFrontEnd

open Parse Productions

variable {β : Type} {context : ParseContext} {known : List TokenKind} {deeper : Productions}
  {last : Use β} {count : Nat}

theorem proceeds_emptyStatement (begins : Proceeds context known advance count) :
    Proceeds context known emptyStatement count :=
  proceeds_first begins fun _ => proceeds_pure

theorem proceeds_jump {kind : NodeKind} : Proceeds context known (jump kind) 1 := by
  refine leads_bind proceeds_advanceAny fun _ => ?_
  exact leads_bind proceeds_expectSemicolon fun _ => leads_pure rfl

theorem proceeds_expectForSemicolon : Proceeds context known expectForSemicolon 1 :=
  proceeds_expectPunctuator

section Parts

variable (inside : deeper.Conducted context)

include inside

theorem proceeds_parenthesizedCondition {word : String} :
    Proceeds context known (parenthesizedCondition deeper word) 1 := by
  refine leads_bind proceeds_expectPunctuator fun _ => ?_
  refine leads_bind (proceeds_expression inside) fun _ => ?_
  exact leads_bind proceeds_expectClosingParen fun _ => leads_pure rfl

theorem proceeds_optionalExpression {ending : Punctuator} :
    Proceeds context known (optionalExpression deeper ending) 0 := by
  refine leads_ask asks_atPunctuator fun _ => leads_ite (fun _ => ?_) fun _ => ?_
  · exact leads_location fun _ => proceeds_pure
  · exact (proceeds_expression inside).any

theorem proceeds_labelBody : Proceeds context known (labelBody deeper) 0 := by
  refine leads_ask asks_atPunctuator fun _ => leads_ite (fun _ => ?_) fun _ => ?_
  · exact leads_location fun _ => proceeds_pure
  · refine leads_ask asks_startsDeclaration fun _ => ?_
    exact leads_ite (fun _ => (proceeds_groupedDeclaration inside).any) fun _ => inside.statement.any

theorem proceeds_forBeginning : Proceeds context known (forBeginning deeper) 1 := by
  refine leads_ask asks_atPunctuator fun _ => leads_ask asks_startsDeclaration fun _ => ?_
  refine leads_ite (fun _ => proceeds_groupedDeclaration inside) fun _ => ?_
  refine leads_bind (proceeds_optionalExpression inside) fun _ => ?_
  exact leads_bind proceeds_expectForSemicolon fun _ => leads_pure rfl

/-! ## Statements by their first word -/

theorem proceeds_ifStatement : Proceeds context known (ifStatement deeper) 1 := by
  refine leads_bind proceeds_advanceAny fun _ => ?_
  refine leads_bind (proceeds_parenthesizedCondition inside) fun _ => ?_
  refine leads_bind inside.statement fun _ => leads_bind (proceeds_consume (by simp)) fun _ => ?_
  exact leads_optional (fun _ => inside.statement) fun _ => leads_pure rfl

theorem proceeds_whileLoop : Proceeds context known (whileLoop deeper) 1 := by
  refine leads_bind proceeds_advanceAny fun _ => ?_
  refine leads_bind (proceeds_parenthesizedCondition inside) fun _ => ?_
  exact leads_bind inside.statement fun _ => leads_pure rfl

theorem proceeds_doWhileLoop : Proceeds context known (doWhileLoop deeper) 1 := by
  refine leads_bind proceeds_advanceAny fun _ => leads_bind inside.statement fun _ => ?_
  refine leads_bind (proceeds_discard (proceeds_expect (by simp))) fun _ => ?_
  refine leads_bind (proceeds_parenthesizedCondition inside) fun _ => ?_
  exact leads_bind proceeds_expectSemicolon fun _ => leads_pure rfl

theorem proceeds_forScope {word : Token} :
    Proceeds context known (do
      discard (expectPunctuator .openParen "'(' after 'for'")
      let beginning ← forBeginning deeper
      let condition ← optionalExpression deeper .semicolon
      expectForSemicolon
      let step ← optionalExpression deeper .closeParen
      expectClosingParen
      let body ← deeper.statement
      return Node.ofChildren .forLoop word.location [beginning, condition, step, body]) 1 := by
  refine leads_bind proceeds_expectPunctuator fun _ => ?_
  refine leads_bind (proceeds_forBeginning inside) fun _ => ?_
  refine leads_bind (proceeds_optionalExpression inside) fun _ => ?_
  refine leads_bind proceeds_expectForSemicolon fun _ => ?_
  refine leads_bind (proceeds_optionalExpression inside) fun _ => ?_
  refine leads_bind proceeds_expectClosingParen fun _ => ?_
  exact leads_bind inside.statement fun _ => leads_pure rfl

theorem proceeds_forLoop : Proceeds context known (forLoop deeper) 1 :=
  leads_bind proceeds_advanceAny fun _ => leads_inNewScope (proceeds_forScope inside)

theorem proceeds_switchStatement : Proceeds context known (switchStatement deeper) 1 := by
  refine leads_bind proceeds_advanceAny fun _ => ?_
  refine leads_bind (proceeds_parenthesizedCondition inside) fun _ => ?_
  exact leads_bind inside.statement fun _ => leads_pure rfl

theorem proceeds_caseLabel : Proceeds context known (caseLabel deeper) 1 := by
  refine leads_bind proceeds_advanceAny fun _ => leads_bind inside.conditional fun _ => ?_
  refine leads_bind (proceeds_consumeInGnu (by simp)) fun _ => ?_
  refine leads_optional (fun _ => inside.conditional) fun _ => ?_
  refine leads_bind proceeds_expectPunctuator fun _ => ?_
  exact leads_bind (proceeds_labelBody inside) fun _ => leads_pure rfl

theorem proceeds_defaultLabel : Proceeds context known (defaultLabel deeper) 1 := by
  refine leads_bind proceeds_advanceAny fun _ => leads_bind proceeds_expectPunctuator fun _ => ?_
  exact leads_bind (proceeds_labelBody inside) fun _ => leads_pure rfl

theorem proceeds_returnStatement : Proceeds context known (returnStatement deeper) 1 := by
  refine leads_bind proceeds_advanceAny fun _ => leads_ask asks_atPunctuator fun _ => ?_
  refine leads_either (fun _ => proceeds_pure)
    (fun _ => (proceeds_map (proceeds_expression inside)).any) fun _ => ?_
  exact leads_bind proceeds_expectSemicolon fun _ => leads_pure rfl

theorem proceeds_gotoStatement : Proceeds context known (gotoStatement deeper) 1 := by
  refine leads_bind proceeds_advanceAny fun _ => leads_consumeInGnu (by simp) ?_ ?_
  · refine leads_bind (proceeds_expression inside) fun _ => leads_bind proceeds_pure fun _ => ?_
    exact leads_bind proceeds_expectSemicolon fun _ => leads_pure rfl
  · refine leads_bind proceeds_expectIdentifier fun _ => leads_bind proceeds_pure fun _ => ?_
    exact leads_bind proceeds_expectSemicolon fun _ => leads_pure rfl

/-! ## Other statements -/

theorem proceeds_labeledStatement (begins : Proceeds context known advance count) :
    Proceeds context known (labeledStatement deeper) count := by
  refine proceeds_first begins fun _ => leads_bind (proceeds_discard proceeds_advanceAny) fun _ => ?_
  refine leads_bind proceeds_skipAttributes fun _ => ?_
  exact leads_bind (proceeds_labelBody inside) fun _ => leads_pure rfl

theorem proceeds_expressionStatement : Proceeds context known (expressionStatement deeper) 1 := by
  refine leads_location fun _ => leads_bind (proceeds_expression inside) fun _ => ?_
  exact leads_bind proceeds_expectSemicolon fun _ => leads_pure rfl

theorem proceeds_statementRule : Proceeds context known (statementRule deeper) 1 := by
  refine leads_bind proceeds_skipAttributes fun _ => leads_peek fun token => ?_
  split
  · exact proceeds_block inside
  · exact .of_kind ‹_› (proceeds_emptyStatement (proceeds_advance (by simp)))
  · exact proceeds_ifStatement inside
  · exact proceeds_whileLoop inside
  · exact proceeds_doWhileLoop inside
  · exact proceeds_forLoop inside
  · exact proceeds_switchStatement inside
  · exact proceeds_caseLabel inside
  · exact proceeds_defaultLabel inside
  · exact proceeds_returnStatement inside
  · exact proceeds_jump
  · exact proceeds_jump
  · exact proceeds_gotoStatement inside
  · exact proceeds_assembly inside
  · refine leads_test sees_atLabel ?_ (proceeds_expressionStatement inside)
    exact proceeds_labeledStatement inside (proceeds_advance (by simp))

end Parts

namespace Productions

/-- What the productions one level further in do is done by the rules made of them. -/
theorem Conducted.rules (inside : deeper.Conducted context) : (rules deeper).Conducted context where
  assignment := proceeds_assignmentRule inside
  conditional := proceeds_conditionalRule inside
  cast := proceeds_castRule inside
  unary := proceeds_unaryRule inside
  initializerList := proceeds_initializerListRule inside
  statement := proceeds_statementRule inside
  specifiers _ := leads_specifiersRule inside
  declarator _ := proceeds_declaratorRule inside

theorem conducted_exhausted : exhausted.Conducted context where
  assignment := leads_tooDeep
  conditional := leads_tooDeep
  cast := leads_tooDeep
  unary := leads_tooDeep
  initializerList := leads_tooDeep
  statement := leads_tooDeep
  specifiers _ := leads_tooDeep
  declarator _ := leads_tooDeep

theorem conducted_ofLevels (levels : Nat) : (ofLevels levels).Conducted context := by
  -- Without levels everything gives up; each level is built on the productions of the one inside.
  induction levels with
  | zero => exact conducted_exhausted
  | succ levels ih => exact ih.rules

end Productions

end CFrontEnd
