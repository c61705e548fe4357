import CFrontEnd.Grammar.Rules.Declarations
import CFrontEnd.Grammar.Rules.Declarators
import CFrontEnd.Proofs.Recovery.Specifiers

/-!
Declarators, declarations and blocks do not pass a fence, if the productions one level further in do not.
A declarator with a name uses up a token. So does a declaration that is completed, and the semicolon at its
end may be the fence.
-/

namespace CFrontEnd

section

open Parse Productions

namespace Fence

variable {α β : Type} {context : ParseContext} {fence : Fence context} {known : List TokenKind}
  {deeper : Productions} {Last : β → ParseState → Prop} (inside : deeper.Fenced context)

/-! ## Parameters -/

theorem confined_arrayWords : fence.Confined known arrayWords := by
  refine confined_iterate fun words => leads_peek fun token _ => ?_
  split
  · exact .of_kind ‹_› (leads_discard_advance (by simp) confined_pure)
  · refine .of_kind ‹_› ?_
    split
    · exact leads_discard_advance (by simp) confined_pure
    · exact confined_pure
  · exact confined_pure

/-- The star and the bracket behind it are seen before the star is used up. -/
theorem leads_openLength {continuation : Bool → Unit → Parse β}
    (rest : ∀ isStar, fence.Leads [] (continuation isStar ()) Last) :
    fence.Leads known (atOpenLength >>= fun isStar =>
      if isStar = true then discard advance >>= continuation isStar else continuation isStar ())
      Last :=
  leads_test sees_atOpenLength (leads_discard_advance (by simp) (rest true)) (rest false).at

theorem confined_addPointer {nearest : List TypeDerivation} :
    fence.Confined known (addPointer nearest) := by
  refine leads_location fun _ _ => leads_consume (by simp) ?_ confined_pure
  refine leads_bind (confined_iterate fun qualifiers => leads_peek fun token _ => ?_)
    fun _ => confined_pure
  split
  · exact leads_bind confined_skipAttributes fun _ => confined_pure
  · refine .of_kind ‹_› ?_
    split
    · exact leads_discard_advance (by simp) confined_pure
    · exact confined_pure
  · exact confined_pure

theorem leads_atEnclosedDeclarator {form : DeclaratorForm} {continuation : Bool → Parse β}
    (succeeds : fence.Leads [.punctuator .openParen] (continuation true) Last)
    (fails : fence.Leads known (continuation false) Last) :
    fence.Leads known (atEnclosedDeclarator form >>= continuation) Last :=
  leads_test sees_atEnclosedDeclarator succeeds fails

include inside

theorem confined_parameterDeclaration : fence.Confined known (parameterDeclaration deeper) := by
  refine leads_location fun _ start => leads_specifiers (inside.specifiers true) fun _ covered => ?_
  refine leads_ite (fun _ => leads_peek fun _ here => ?_) fun _ => ?_
  · exact leads_ite (fun _ => leads_giveUp here) fun _ => leads_unexpected
  · refine leads_when (fun _ => (keeps_complain start).confined) ?_
    refine leads_bind (confined_baseType covered) fun _ => ?_
    refine leads_bind (inside.declarator .either) fun _ => leads_bind confined_skipAttributes
      fun _ => ?_
    dsimp only
    split
    · exact leads_bind confined_addOrdinary fun _ => confined_pure
    · exact confined_pure

theorem confined_addParameter {list : ParameterList} :
    fence.Confined known (addParameter deeper list) := by
  refine leads_consumePunctuator (by simp) confined_pure ?_
  refine leads_bind (confined_parameterDeclaration inside) fun _ => ?_
  exact leads_consumePunctuator (by simp) confined_pure confined_pure

theorem confined_parameterList : fence.Confined known (parameterList deeper) := by
  refine leads_consumePunctuator (by simp) confined_pure (leads_peek fun token covered => ?_)
  refine leads_peekAhead fun next => leads_ite (fun isVoid => ?_) fun _ => ?_
  · have kinds : token.kind = .keyword .voidWord ∧ next.kind = .punctuator .closeParen := by
      simpa using isVoid
    rw [kinds.1, kinds.2]
    exact leads_discard_advance (by simp) (leads_discard_advance (by simp) confined_pure)
  · refine leads_ask asks_atOldStyleParameters fun _ => leads_ite (fun _ => leads_giveUp covered)
      fun _ => ?_
    refine leads_bind (confined_iterate fun _ => confined_addParameter inside) fun _ => ?_
    exact leads_bind (confined_expectPunctuator (by simp)) fun _ => confined_pure

theorem confined_functionDerivation :
    fence.Confined [.punctuator .openParen] (functionDerivation deeper) := by
  refine leads_location fun _ _ => leads_discard_advance (by simp) ?_
  exact leads_bind (confined_inNewScope (confined_parameterList inside)) fun _ => confined_pure

theorem confined_arrayDerivation :
    fence.Confined [.punctuator .openBracket] (arrayDerivation deeper) := by
  refine leads_location fun _ _ => leads_discard_advance (by simp) ?_
  refine leads_bind confined_arrayWords fun _ => leads_openLength fun _ => ?_
  refine leads_ask asks_atPunctuator fun _ => ?_
  refine leads_either (fun _ => confined_pure) (fun _ => confined_map inside.assignment) fun _ => ?_
  exact leads_bind (confined_expectPunctuator (by simp)) fun _ => confined_pure

/-! ## Declarators -/

theorem confined_addDerivation {declarator : Declarator} :
    fence.Confined known (addDerivation deeper declarator) := by
  refine leads_peek fun token _ => leads_ask asks_atBrackets fun _ => ?_
  refine leads_ite (fun isArray => ?_) fun _ => leads_ite (fun isFunction => ?_) fun _ => confined_pure
  · have kind : token.kind = .punctuator .openBracket := by
      rw [Bool.and_eq_true] at isArray
      simpa using isArray.1
    rw [kind]
    exact leads_bind (confined_arrayDerivation inside) fun _ => confined_pure
  · have kind : token.kind = .punctuator .openParen := by simpa using isFunction
    rw [kind]
    exact leads_bind (confined_functionDerivation inside) fun _ => confined_pure

theorem confined_declaratorCore {form : DeclaratorForm} :
    fence.Confined known (declaratorCore deeper form) := by
  refine leads_atEnclosedDeclarator (leads_discard_advance (by simp) ?_) (leads_peek fun token _ => ?_)
  · refine leads_bind confined_skipAttributes fun _ => leads_bind (inside.declarator form) fun _ => ?_
    exact leads_bind confined_expectClosingParen fun _ => confined_pure
  · refine leads_ite (fun isName => ?_) fun _ => leads_ite (fun _ => leads_unexpected)
      fun _ => confined_pure
    have kind : token.kind = .identifier := by
      rw [Bool.and_eq_true] at isName
      simpa using isName.1
    rw [kind]
    exact leads_discard_advance (by simp) confined_pure

theorem leads_declaratorCore :
    fence.Leads known (declaratorCore deeper .named) fun _ next => fence.Onward next := by
  refine leads_atEnclosedDeclarator (leads_onward (by simp) ?_) (leads_peek fun token _ => ?_)
  · refine leads_bind confined_skipAttributes fun _ => leads_bind (inside.declarator .named) fun _ => ?_
    exact leads_bind confined_expectClosingParen fun _ => confined_pure
  · refine leads_ite (fun isName => ?_) fun _ => leads_unexpected
    have kind : token.kind = .identifier := by simpa using isName
    rw [kind]
    exact leads_onward (by simp) confined_pure

theorem confined_declaratorRule {form : DeclaratorForm} :
    fence.Confined known (declaratorRule deeper form) := by
  refine leads_bind (confined_iterate fun _ => confined_addPointer) fun _ => leads_bind ?_
    fun _ => confined_pure
  refine leads_bind (confined_declaratorCore inside) fun _ => ?_
  exact confined_iterate fun _ => confined_addDerivation inside

theorem leads_declaratorRule :
    fence.Leads known (declaratorRule deeper .named) fun _ next => fence.Onward next := by
  refine leads_bind (confined_iterate fun _ => confined_addPointer) fun _ => ?_
  refine Leads.onward ?_ fun _ => confined_pure
  refine Leads.onward (leads_declaratorCore inside) fun _ => ?_
  exact confined_iterate fun _ => confined_addDerivation inside

end Fence

end

section

open Parse Productions

namespace Fence

variable {context : ParseContext} {fence : Fence context} {known : List TokenKind}
  {deeper : Productions} {specifiers : DeclarationSpecifiers} {base : Node}
  (inside : deeper.Fenced context)

/-! ## Assembly -/

theorem confined_skipAssemblyWords : fence.Confined known skipAssemblyWords := by
  refine confined_iterate fun _ => leads_peek fun token _ => ?_
  split
  · exact .of_kind ‹_› (leads_discard_advance (by simp) confined_pure)
  · exact .of_kind ‹_› (leads_discard_advance (by simp) confined_pure)
  · exact .of_kind ‹_› (leads_discard_advance (by simp) confined_pure)
  · exact confined_pure

theorem confined_assemblerName? : fence.Confined known assemblerName? := by
  refine leads_consume (by simp) ?_ confined_pure
  refine leads_bind (confined_expectPunctuator (by simp)) fun _ => ?_
  refine leads_bind confined_stringText fun _ => ?_
  exact leads_bind confined_expectClosingParen fun _ => confined_pure

section Assembly

include inside

theorem confined_assemblyOperand : fence.Confined known (assemblyOperand deeper) := by
  have value : fence.Confined [] (do
      discard stringLiteral
      discard (expectPunctuator .openParen "'(' before asm operand")
      let operand ← deeper.expression
      expectClosingParen
      return operand) := by
    refine leads_bind (confined_discard confined_stringLiteral) fun _ => ?_
    refine leads_bind (confined_expectPunctuator (by simp)) fun _ => ?_
    refine leads_bind (confined_expression inside) fun _ => ?_
    exact leads_bind confined_expectClosingParen fun _ => confined_pure
  refine leads_consumed (by simp) fun _ => leads_ite (fun _ => ?_) fun _ => value
  refine leads_bind (confined_discard confined_expectIdentifier) fun _ => ?_
  exact leads_bind (confined_expectPunctuator (by simp)) fun _ => value

theorem confined_assemblyItem {list : Nat} : fence.Confined known (assemblyItem deeper list) := by
  unfold assemblyItem
  split
  · exact leads_bind (confined_assemblyOperand inside) fun _ => confined_pure
  · exact leads_bind (confined_assemblyOperand inside) fun _ => confined_pure
  · exact leads_bind (confined_discard confined_stringLiteral) fun _ => confined_pure
  · exact leads_bind (confined_discard confined_expectIdentifier) fun _ => confined_pure

theorem confined_assemblyLists : fence.Confined known (assemblyLists deeper) := by
  refine leads_bind (confined_iterate fun ⟨list, operands⟩ => ?_) fun _ => confined_pure
  refine leads_consumePunctuator (by simp) (leads_peek fun next _ => ?_) confined_pure
  refine leads_ite (fun _ => confined_pure) fun _ => ?_
  refine leads_bind (confined_iterate fun _ => ?_) fun _ => confined_pure
  refine leads_bind (confined_assemblyItem inside) fun _ => ?_
  exact leads_consumePunctuator (by simp) confined_pure confined_pure

theorem leads_assembly :
    fence.Leads [.keyword .asmWord] (assembly deeper) fun _ next => fence.Past next := by
  refine leads_location fun _ _ => leads_discard_advance (by simp) ?_
  refine leads_bind confined_skipAssemblyWords fun _ => ?_
  refine leads_bind (confined_expectPunctuator (by simp)) fun _ => ?_
  refine leads_bind confined_stringText fun _ => leads_bind (confined_assemblyLists inside) fun _ => ?_
  exact leads_bind (confined_expectPunctuator (by simp)) fun _ => leads_lastSemicolon

end Assembly

/-! ## Declarators with what they declare -/

theorem confined_functionDefinition {declaration : Node} {body : Parse Node}
    (isConfined : fence.Confined [] body) :
    fence.Confined known (functionDefinition declaration body) := by
  refine leads_bind confined_addOrdinary fun _ => leads_bind (confined_inNewScope ?_)
    fun _ => confined_pure
  refine leads_bind (confined_forIn fun parameter => ?_) fun _ => isConfined
  split
  · exact leads_bind confined_addOrdinary fun _ => confined_pure
  · exact confined_pure

theorem leads_withoutSpecifiers {atTop : Bool} :
    fence.Leads known (withoutSpecifiers atTop specifiers) fence.Located := by
  refine leads_peek fun token here => leads_ask asks_peekAhead fun next => ?_
  refine leads_ite (fun _ => leads_pure fun _ holds => ⟨holds, here⟩) fun _ => ?_
  exact leads_ite (fun _ => leads_giveUp here) fun _ => leads_unexpected

theorem leads_labelDeclarations :
    fence.Leads [.keyword .labelWord] labelDeclarations (fence.Ended fence.Past) := by
  refine leads_discard_advance (by simp) (leads_thenFinish
    (leads_separatedItems ?_) leads_expectSemicolon)
  exact leads_bind confined_expectIdentifier fun _ => confined_pure

section Declarations

include inside

theorem confined_variableDeclaration {declarator : Declarator} {symbol : Option String} :
    fence.Confined known (variableDeclaration deeper specifiers base declarator symbol) := by
  refine leads_bind confined_addOrdinary fun _ => leads_consumed (by simp) fun _ => ?_
  exact leads_optional (fun _ => confined_initializer inside) fun _ => confined_pure

variable {body : Option (Parse Node)}

theorem leads_initDeclarator (isConfined : ∀ block ∈ body, fence.Confined [] block) :
    fence.Leads known (initDeclarator deeper body specifiers base) fun _ next => fence.Onward next := by
  refine Leads.onward inside.named fun declarator => ?_
  refine leads_bind confined_assemblerName? fun _ => leads_bind confined_skipAttributes fun _ => ?_
  refine leads_ite (fun _ => confined_pure) fun _ => leads_ite (fun _ => ?_) fun _ => ?_
  · refine leads_atPunctuator ?_ (leads_bind confined_addOrdinary fun _ => confined_pure)
    simp only [if_true]
    split
    · exact (confined_functionDefinition (isConfined _ rfl)).at
    · exact leads_location fun _ here => leads_giveUp here
  · exact confined_variableDeclaration inside

theorem leads_initDeclarators (isConfined : ∀ block ∈ body, fence.Confined [] block) :
    fence.Leads known (initDeclarators deeper body specifiers base) fun items next =>
      fence.Kept items next ∧ (items.completed = true → fence.first < next.position) := by
  refine leads_iterate fun items state holds _ => ?_
  refine Confines.attempt (Leads.run (leads_initDeclarator inside ?_) holds) ?_ ?_
  · intro block member
    split at member
    · exact isConfined block member
    · cases member
  · intro node next _ onward
    refine Confines.mono (Leads.run (leads_ite (fun _ => confined_pure) fun _ =>
      leads_consumePunctuator (by simp) confined_pure confined_pure) onward.holds) ?_
    intro outcome last later holds
    have further : fence.first < last.position := Nat.lt_of_lt_of_le onward.further later.forward
    have kept : ∀ items : Items, fence.Kept items last ∧
        (items.completed = true → fence.first < last.position) := fun items =>
      ⟨⟨holds.high, fun _ => holds.calm⟩, fun _ => further⟩
    refine ⟨fun _ _ => kept _, fun _ _ => ⟨holds, ?_⟩⟩
    exact ⟨⟨holds.high, fun _ => holds.calm⟩, fun _ => further⟩
  · intro next reach high
    exact .of_ok rfl (.quiet rfl (Nat.le_refl _) reach.bounded)
      (.of_done ⟨⟨high, by simp⟩, by simp⟩)

/-! ## Declarations -/

theorem leads_declaration (isConfined : ∀ block ∈ body, fence.Confined [] block) :
    fence.Leads known (declaration deeper body) (fence.Ended fence.Past) := by
  refine leads_specifiers (inside.specifiers true) fun specifiers covered => ?_
  refine Leads.either (fun _ => leads_pure fun _ holds => ⟨holds, covered⟩)
    (fun _ => leads_withoutSpecifiers) fun specifiers next located => ⟨located.holds, ?_⟩
  refine leads_bind (confined_baseType located.covered) fun base => ?_
  refine leads_consumeSemicolon (fun _ past => ⟨by simp, fun _ => past⟩) fun state holds _ => ?_
  refine Confines.bind (Leads.run (leads_initDeclarators inside isConfined) holds)
    fun items next reach ⟨kept, further⟩ => ?_
  refine .step (modifyScopes_apply _) (.quiet rfl (Nat.le_refl _) reach.bounded) ?_
  split
  · refine .of_ok rfl (.quiet rfl (Nat.le_refl _) reach.bounded) ⟨fun _ => kept.high, ?_⟩
    exact fun completed => ⟨further completed, kept.calm completed⟩
  · exact confines_thenFinish ⟨kept.high, kept.calm⟩ (Nat.le_trans holds.low reach.forward)
      leads_expectSemicolon

theorem leads_blockDeclaration :
    fence.Leads known (blockDeclaration deeper) (fence.Ended fence.Past) := by
  refine leads_bind confined_skipExtensions fun _ => leads_peek fun token _ => ?_
  split
  · exact .of_kind ‹_› (leads_single (leads_staticAssertion inside))
  · exact .of_kind ‹_› (leads_labelDeclarations)
  · exact leads_declaration inside (by simp)

theorem confined_groupedDeclaration (isBrace : fence.mark = .closeBrace) :
    fence.Confined known (groupedDeclaration deeper) := by
  refine leads_location fun _ _ => ?_
  exact leads_bind (confined_completed ((leads_blockDeclaration inside).kept isBrace))
    fun _ => confined_pure

/-! ## Blocks -/

theorem leads_blockItem (isBrace : fence.mark = .closeBrace) :
    fence.Leads known (blockItem deeper) (fence.Ended fun next => next.panicking = false) := by
  refine leads_ask asks_startsDeclaration fun _ => leads_ite (fun _ => ?_) fun _ => ?_
  · refine (leads_blockDeclaration inside).mono fun _ _ _ ended => ⟨ended.high, ?_⟩
    exact fun completed => (ended.done completed).calm
  · exact leads_single ((inside.statement isBrace).mono fun _ _ _ holds => holds.calm)

theorem confined_blockIn {inScope : Parse (Array Node) → Parse (Array Node)}
    (keeps : ∀ (inner : Fence context) (production : Parse (Array Node)),
      inner.Confined [] production → inner.Confined [] (inScope production)) :
    fence.Confined known (blockIn inScope deeper) := by
  refine leads_expectBraced (fun inner isBrace => keeps inner _ ?_) fun _ _ => confined_pure
  exact confined_recoveringItems isBrace (by simp) (leads_blockItem inside isBrace)

theorem confined_functionBody : fence.Confined known (functionBody deeper) :=
  confined_blockIn inside fun _ _ confined => confined

theorem confined_block : fence.Confined known (block deeper) :=
  confined_blockIn inside fun _ _ confined => confined_inNewScope confined

theorem leads_externalDeclaration :
    fence.Leads known (externalDeclaration deeper) (fence.Ended fence.Past) := by
  refine leads_bind confined_skipExtensions fun _ => leads_peek fun token _ => ?_
  split
  · exact .of_kind ‹_› (leads_advanceSemicolon fun _ past => ⟨by simp, fun _ => past⟩)
  · exact .of_kind ‹_› (leads_single (leads_staticAssertion inside))
  · exact .of_kind ‹_› (leads_single (leads_assembly inside))
  · refine leads_declaration inside ?_
    rintro _ ⟨⟩
    exact confined_functionBody inside

end Declarations

end Fence

end

end CFrontEnd
