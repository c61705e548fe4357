import CFrontEnd.Grammar.Rules.Declarations
import CFrontEnd.Grammar.Rules.Declarators
import CFrontEnd.Proofs.Conduct.Specifiers

/-!
Declarators, declarations and blocks. Declarators may be empty unless they must have a name, and every
step of theirs that wants another one goes forward. A declaration that is completed has used up a token,
with or without specifiers: it has a declarator or its semicolon.
-/

namespace CFrontEnd

section

open Parse Productions

variable {α β : Type} {context : ParseContext} {known : List TokenKind} {deeper : Productions}
  {last : Use β} {count : Nat}

theorem proceeds_arrayWords : Proceeds context known arrayWords 0 := by
  refine proceeds_iterate fun words => leads_peek fun token => ?_
  split
  · exact .of_kind ‹_› (leads_discard_advance (by simp) (leads_pure rfl))
  · refine .of_kind ‹_› ?_
    split
    · exact leads_discard_advance (by simp) (leads_pure rfl)
    · exact leads_pure rfl
  · exact leads_pure rfl

theorem leads_addPointerQualifier {qualifiers : Qualifiers} :
    Leads context known (addPointerQualifier qualifiers) (Use.atLeast 0).step := by
  refine leads_peek fun token => ?_
  split
  · exact .of_kind ‹_› (leads_bind proceeds_skipAttributes_word fun _ => leads_pure rfl)
  · refine .of_kind ‹_› ?_
    split
    · exact leads_discard_advance (by simp) (leads_pure rfl)
    · exact leads_pure rfl
  · exact leads_pure rfl

theorem proceeds_pointerQualifiers : Proceeds context known pointerQualifiers 0 :=
  proceeds_iterate fun _ => leads_addPointerQualifier

theorem proceeds_pointers : Proceeds context known pointers 0 := by
  refine proceeds_iterate fun nearest => leads_location fun _ => ?_
  refine leads_consume (by simp) ?_ (leads_pure rfl)
  exact leads_bind proceeds_pointerQualifiers fun _ => leads_pure rfl

variable (inside : deeper.Conducted context)

include inside

/-! ## Parameters -/

theorem proceeds_parameterDeclaration : Proceeds context known (parameterDeclaration deeper) 1 := by
  refine leads_location fun _ => leads_specifiers (inside.specifiers true) (fun _ => ?_) fun _ => ?_
  · exact leads_ask asks_peek fun _ => leads_ite (fun _ => leads_giveUp) fun _ => leads_unexpected
  · refine leads_when (fun _ => proceeds_complain) (leads_bind proceeds_baseType fun _ => ?_)
    refine leads_bind (inside.declarator .either) fun _ => leads_bind proceeds_skipAttributes
      fun _ => ?_
    dsimp only
    split
    · exact leads_bind proceeds_addOrdinary fun _ => leads_pure rfl
    · exact leads_pure rfl

theorem leads_addParameter {list : ParameterList} :
    Leads context known (addParameter deeper list) (Use.atLeast 0).step := by
  refine leads_consumePunctuator (leads_pure rfl) ?_
  refine leads_bind (proceeds_parameterDeclaration inside) fun _ => ?_
  exact leads_consumePunctuator (leads_pure rfl) (leads_pure rfl)

theorem proceeds_parameterList : Proceeds context known (parameterList deeper) 0 := by
  refine leads_consumePunctuator (leads_pure rfl) (leads_ask asks_peek fun _ => ?_)
  refine leads_ask asks_peekAhead fun _ => leads_ite (fun _ => ?_) fun _ => ?_
  · refine leads_bind (proceeds_discard proceeds_advanceAny) fun _ => ?_
    exact leads_bind (proceeds_discard proceeds_advanceAny) fun _ => leads_pure rfl
  · refine leads_ask asks_atOldStyleParameters fun _ => leads_ite (fun _ => leads_giveUp) fun _ => ?_
    refine leads_bind (proceeds_iterate fun _ => leads_addParameter inside) fun _ => ?_
    exact leads_bind proceeds_expectPunctuator fun _ => leads_pure rfl

theorem proceeds_functionDerivation (begins : Proceeds context known advance count) :
    Proceeds context known (functionDerivation deeper) count := by
  refine leads_location fun _ => proceeds_first (proceeds_discard begins) fun _ => ?_
  exact leads_bind (leads_inNewScope (proceeds_parameterList inside)) fun _ => leads_pure rfl

theorem proceeds_arrayDerivation : Proceeds context known (arrayDerivation deeper) 1 := by
  have rest : ∀ {kinds : List TokenKind} (place : SourceLocation) (words : ArrayWords)
      (isStar : Bool), Proceeds context kinds (do
        let length ←
          if ← atPunctuator .closeBracket then pure none else some <$> deeper.assignment
        expectClosingBracket
        return TypeDerivation.array place words.qualifiers words.isStatic isStar length) 1 := by
    intro kinds place words isStar
    refine leads_ask asks_atPunctuator fun _ => ?_
    refine leads_either (fun _ => proceeds_pure) (fun _ => (proceeds_map inside.assignment).any)
      fun _ => ?_
    exact leads_bind proceeds_expectPunctuator fun _ => leads_pure rfl
  refine leads_location fun _ => leads_bind (proceeds_discard proceeds_advanceAny) fun _ => ?_
  refine leads_bind proceeds_arrayWords fun _ => ?_
  refine leads_test sees_atOpenLength (leads_discard_advance (by simp) ?_) (rest _ _ false)
  exact (rest _ _ true).any

/-! ## Declarators -/

theorem leads_addDerivation {declarator : Declarator} :
    Leads context known (addDerivation deeper declarator) (Use.atLeast 0).step := by
  refine leads_peek fun token => leads_ask asks_atBrackets fun _ => ?_
  refine leads_ite (fun _ => ?_) fun _ => leads_ite (fun isFunction => ?_) fun _ => leads_pure rfl
  · exact leads_bind (proceeds_arrayDerivation inside) fun _ => leads_pure rfl
  · have kind : token.kind = .punctuator .openParen := by simpa using isFunction
    rw [kind]
    have begins : Proceeds context [.punctuator .openParen] advance 1 := proceeds_advance (by simp)
    exact leads_bind (proceeds_functionDerivation inside begins) fun _ => leads_pure rfl

theorem proceeds_declaratorCore {form : DeclaratorForm} :
    Proceeds context known (declaratorCore deeper form) form.worth := by
  have small := form.worth_le
  refine leads_test sees_atEnclosedDeclarator (Proceeds.least ?_ small) (leads_peek fun token => ?_)
  · refine leads_discard_advance (by simp) (leads_bind proceeds_skipAttributes fun _ => ?_)
    refine leads_bind (inside.declarator form).any fun _ => ?_
    exact leads_bind proceeds_expectClosingParen fun _ => leads_pure rfl
  · refine leads_ite (fun isName => Proceeds.least ?_ small) fun _ => ?_
    · have kind : token.kind = .identifier := by
        rw [Bool.and_eq_true] at isName
        simpa using isName.1
      rw [kind]
      exact leads_discard_advance (by simp) (leads_pure rfl)
    · refine leads_ite (fun _ => leads_unexpected) fun unnamed => leads_pure ?_
      simp [Use.atLeast, DeclaratorForm.worth, unnamed]

theorem proceeds_directDeclarator {form : DeclaratorForm} :
    Proceeds context known (directDeclarator deeper form) form.worth :=
  proceeds_first (proceeds_declaratorCore inside) fun _ =>
    proceeds_iterate fun _ => leads_addDerivation inside

theorem proceeds_declaratorRule {form : DeclaratorForm} :
    Proceeds context known (declaratorRule deeper form) form.worth := by
  refine leads_bind proceeds_pointers fun _ => ?_
  exact proceeds_first (proceeds_directDeclarator inside) fun _ => proceeds_pure

end

section

open Parse Productions

variable {context : ParseContext} {known : List TokenKind} {deeper : Productions}
  {specifiers : DeclarationSpecifiers} {base : Node} {count : Nat}
  (inside : deeper.Conducted context)

/-! ## Assembly -/

theorem proceeds_skipAssemblyWords : Proceeds context known skipAssemblyWords 0 := by
  refine proceeds_iterate fun _ => leads_peek fun token => ?_
  split
  · exact .of_kind ‹_› (leads_discard_advance (by simp) (leads_pure rfl))
  · exact .of_kind ‹_› (leads_discard_advance (by simp) (leads_pure rfl))
  · exact .of_kind ‹_› (leads_discard_advance (by simp) (leads_pure rfl))
  · exact leads_pure rfl

theorem proceeds_assemblerName? : Proceeds context known assemblerName? 0 := by
  refine leads_consume (by simp) ?_ proceeds_pure
  refine leads_bind proceeds_expectPunctuator fun _ => ?_
  refine leads_bind proceeds_stringText fun _ => ?_
  exact leads_bind proceeds_expectClosingParen fun _ => leads_pure rfl

section Assembly

include inside

theorem proceeds_assemblyOperand : Proceeds context known (assemblyOperand deeper) 1 := by
  have value : ∀ {kinds : List TokenKind}, Proceeds context kinds (do
      discard stringLiteral
      discard (expectPunctuator .openParen "'(' before asm operand")
      let operand ← deeper.expression
      expectClosingParen
      return operand) 1 := by
    intro kinds
    refine leads_bind (proceeds_discard proceeds_stringLiteral) fun _ => ?_
    refine leads_bind proceeds_expectPunctuator fun _ => ?_
    refine leads_bind (proceeds_expression inside) fun _ => ?_
    exact leads_bind proceeds_expectClosingParen fun _ => leads_pure rfl
  refine leads_consumePunctuator ?_ value
  refine leads_bind (proceeds_discard proceeds_expectIdentifier) fun _ => ?_
  exact leads_bind proceeds_expectPunctuator fun _ => value.any

theorem proceeds_assemblyItem {list : Nat} :
    Proceeds context known (assemblyItem deeper list) 1 := by
  unfold assemblyItem
  split
  · exact leads_bind (proceeds_assemblyOperand inside) fun _ => leads_pure rfl
  · exact leads_bind (proceeds_assemblyOperand inside) fun _ => leads_pure rfl
  · exact leads_bind (proceeds_discard proceeds_stringLiteral) fun _ => leads_pure rfl
  · exact leads_bind (proceeds_discard proceeds_expectIdentifier) fun _ => leads_pure rfl

theorem proceeds_assemblyItems {list : Nat} :
    Proceeds context known (assemblyItems deeper list) 0 := by
  refine proceeds_iterate fun _ => leads_bind (proceeds_assemblyItem inside) fun _ => ?_
  exact leads_consumePunctuator (leads_pure rfl) (leads_pure rfl)

theorem proceeds_assemblyLists : Proceeds context known (assemblyLists deeper) 0 := by
  refine leads_bind (proceeds_iterate fun ⟨list, operands⟩ => ?_) fun _ => leads_pure rfl
  refine leads_consumePunctuator (leads_ask asks_peek fun _ => ?_) (leads_pure rfl)
  refine leads_ite (fun _ => leads_pure rfl) fun _ => ?_
  exact leads_bind (proceeds_assemblyItems inside) fun _ => leads_pure rfl

theorem proceeds_assembly : Proceeds context known (assembly deeper) 1 := by
  refine leads_location fun _ => leads_bind (proceeds_discard proceeds_advanceAny) fun _ => ?_
  refine leads_bind proceeds_skipAssemblyWords fun _ => ?_
  refine leads_bind proceeds_expectPunctuator fun _ => ?_
  refine leads_bind proceeds_stringText fun _ => leads_bind (proceeds_assemblyLists inside) fun _ => ?_
  refine leads_bind proceeds_expectPunctuator fun _ => ?_
  exact leads_bind proceeds_expectSemicolon fun _ => leads_pure rfl

end Assembly

/-! ## Declarators with what they declare -/

theorem proceeds_functionDefinition {declaration : Node} {body : Parse Node}
    (bodyProceeds : Proceeds context [] body count) :
    Proceeds context known (functionDefinition declaration body) count := by
  refine leads_bind proceeds_addOrdinary fun _ => ?_
  refine proceeds_first (Leads.at (leads_inNewScope ?_)) fun _ => proceeds_pure
  refine leads_bind (proceeds_forIn fun parameter => ?_) fun _ => bodyProceeds
  split
  · exact leads_bind proceeds_addOrdinary fun _ => leads_pure rfl
  · exact leads_pure rfl

theorem proceeds_withoutSpecifiers {atTop : Bool} :
    Proceeds context known (withoutSpecifiers atTop specifiers) 0 := by
  refine leads_ask asks_peek fun _ => leads_ask asks_peekAhead fun _ => ?_
  refine leads_ite (fun _ => proceeds_pure) fun _ => ?_
  exact leads_ite (fun _ => leads_giveUp) fun _ => leads_unexpected

theorem ScopeStack.outer_foldl {α : Type} (change : ScopeStack → α → ScopeStack)
    (outer : ∀ scopes item, (change scopes item).outer = scopes.outer) (items : List α)
    (scopes : ScopeStack) : (items.foldl change scopes).outer = scopes.outer := by
  induction items generalizing scopes with
  | nil => rfl
  | cons item items ih => rw [List.foldl_cons, ih, outer]

theorem runs_addTypedefs {before state : ParseState} {used : Option Nat} {nodes : Array Node}
    {β : Type} {continuation : Unit → Parse β} {last : Use β} (ended : Ended context used before state)
    (rest : ∀ next, Ended context used before next →
      Runs context before (continuation ()) next last) :
    Runs context before (addTypedefs nodes >>= continuation) state last := by
  refine .step (modifyScopes_apply _) (rest _ (ended.rescoped ?_))
  rw [← Array.foldl_toList]
  refine ScopeStack.outer_foldl _ (fun scopes node => ?_) _ _
  split <;> rfl

theorem leads_labelDeclarations : Leads context known labelDeclarations (.items 1) := by
  refine leads_bind (proceeds_discard proceeds_advanceAny) fun _ => ?_
  simp only [Use.less_items]
  refine leads_thenFinish (leads_separatedItems ?_) proceeds_expectSemicolon.any
  exact leads_bind proceeds_expectIdentifier fun _ => leads_pure rfl

section Declarations

include inside

theorem proceeds_variableDeclaration {declarator : Declarator} {symbol : Option String} :
    Proceeds context known (variableDeclaration deeper specifiers base declarator symbol) 0 := by
  refine leads_bind proceeds_addOrdinary fun _ => leads_bind (proceeds_consume (by simp)) fun _ => ?_
  exact leads_optional (fun _ => proceeds_initializer inside) fun _ => leads_pure rfl

variable {body : Option (Parse Node)}

theorem proceeds_initDeclarator (bodyProceeds : ∀ block ∈ body, Proceeds context [] block 1) :
    Proceeds context known (initDeclarator deeper body specifiers base) 1 := by
  refine proceeds_first (inside.declarator .named) fun declarator => ?_
  refine leads_bind proceeds_assemblerName? fun _ => leads_bind proceeds_skipAttributes fun _ => ?_
  refine leads_ite (fun _ => leads_pure rfl) fun _ => leads_ite (fun _ => ?_) fun _ => ?_
  · refine leads_test sees_atPunctuator ?_ (leads_bind proceeds_addOrdinary fun _ => leads_pure rfl)
    simp only [if_true]
    split
    · exact (proceeds_functionDefinition (bodyProceeds _ rfl)).any
    · exact leads_location fun _ => leads_giveUp
  · exact proceeds_variableDeclaration inside

theorem leads_initDeclarators (bodyProceeds : ∀ block ∈ body, Proceeds context [] block 1) :
    Leads context known (initDeclarators deeper body specifiers base) (.items 1) := by
  refine leads_iterate fun items => ?_
  have declares : Proceeds context [] (initDeclarator deeper
      (if items.nodes.isEmpty = true then body else none) specifiers base) 1 := by
    refine proceeds_initDeclarator inside fun block member => ?_
    split at member
    · exact bodyProceeds block member
    · cases member
  refine leads_attempted declares (fun node => ?_) fun _ _ gaveUp => ?_
  · refine leads_ite (fun _ => leads_pure rfl) fun _ => ?_
    exact leads_consumePunctuator (leads_pure rfl) (leads_pure rfl)
  · exact .of_ok rfl gaveUp

/-! ## Declarations -/

theorem leads_declaration (bodyProceeds : ∀ block ∈ body, Proceeds context [] block 1) :
    Leads context known (declaration deeper body) (.items 1) := by
  refine leads_bind (inside.anySpecifiers true) fun specifiers => ?_
  refine leads_either (fun _ => proceeds_pure) (fun _ => proceeds_withoutSpecifiers)
    fun specifiers => ?_
  refine leads_bind proceeds_baseType fun base => leads_consumePunctuator (leads_pure rfl) ?_
  simp only [Use.less_items]
  intro state shows
  refine (leads_initDeclarators inside bodyProceeds state shows).bind fun items next ended => ?_
  refine runs_addTypedefs ended fun next ended => ?_
  split
  · exact .of_ok rfl ended
  · exact runs_thenFinish ended proceeds_expectSemicolon.any

theorem leads_blockDeclaration : Leads context known (blockDeclaration deeper) (.items 1) := by
  refine leads_bind proceeds_skipExtensions fun _ => leads_ask asks_peek fun token => ?_
  simp only [Use.less_items]
  split
  · exact leads_single (proceeds_staticAssertion inside)
  · exact leads_labelDeclarations
  · exact leads_declaration inside (by simp)

theorem proceeds_groupedDeclaration : Proceeds context known (groupedDeclaration deeper) 1 := by
  refine leads_location fun _ => ?_
  exact proceeds_first (proceeds_completed (leads_blockDeclaration inside)) fun _ => proceeds_pure

/-! ## Blocks -/

theorem leads_blockItem : Leads context known (blockItem deeper) (.items 1) := by
  refine leads_ask asks_startsDeclaration fun _ => leads_ite (fun _ => ?_) fun _ => ?_
  · exact leads_blockDeclaration inside
  · exact leads_single inside.statement

theorem proceeds_blockIn {inScope : Parse (Array Node) → Parse (Array Node)}
    (keeps : ∀ production : Parse (Array Node),
      Proceeds context [] production 0 → Proceeds context [] (inScope production) 0) :
    Proceeds context known (blockIn inScope deeper) 1 := by
  refine proceeds_first (proceeds_expect (by simp)) fun _ => ?_
  refine leads_bind (keeps _ (proceeds_recoveringItems (leads_blockItem inside))) fun _ => ?_
  exact leads_bind proceeds_expectClosingBrace fun _ => leads_pure rfl

theorem proceeds_functionBody : Proceeds context known (functionBody deeper) 1 :=
  proceeds_blockIn inside fun _ proceeds => proceeds

theorem proceeds_block : Proceeds context known (block deeper) 1 :=
  proceeds_blockIn inside fun _ proceeds => leads_inNewScope proceeds

theorem leads_externalDeclaration :
    Leads context known (externalDeclaration deeper) (.items 1) := by
  refine leads_bind proceeds_skipExtensions fun _ => leads_peek fun token => ?_
  simp only [Use.less_items]
  split
  · exact .of_kind ‹_› (leads_discard_advance (by simp) (leads_pure rfl))
  · exact leads_single (proceeds_staticAssertion inside)
  · exact leads_single (proceeds_assembly inside)
  · refine leads_declaration inside ?_
    rintro _ ⟨⟩
    exact proceeds_functionBody inside

end Declarations

end

end CFrontEnd
