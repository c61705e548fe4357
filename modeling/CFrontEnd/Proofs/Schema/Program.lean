import CFrontEnd.Grammar.Start
import CFrontEnd.Proofs.Blocks.Program
import CFrontEnd.Proofs.Schema.Expressions

/-!
Statements, and with them all productions of a level and the trees of texts: whatever the rule, the
tokens and the problems in them, a tree that parsing leads to is well formed.
-/

namespace CFrontEnd

section

open Parse Productions
open NodeKind (isExpression isStatement isClause isLoopBeginning isLabelBody isGroupedDeclaration)

variable {tokens : TokenStream} {context : ParseContext} {deeper : Productions}

/-! ## Statements without parts -/

theorem is_empty {place : SourceLocation} {sort : NodeKind → Bool} (placed : tokens.HasPlace place)
    (sorted : sort .empty = true) : (Node.leaf .empty place .none).Is tokens sort :=
  Node.Fill.nil.node placed rfl nofun sorted rfl

theorem yields_emptyStatement : Yields context emptyStatement (·.Is context.tokens isStatement) :=
  yields_bind yields_advance fun _ placed => yields_pure (is_empty placed rfl)

theorem yields_break : Yields context (jump .breakStatement) (·.Is context.tokens isStatement) :=
  yields_bind yields_advance fun _ placed => yields_then fun _ =>
    yields_pure (Node.Fill.nil.node placed rfl nofun rfl rfl)

theorem yields_continue : Yields context (jump .continueStatement) (·.Is context.tokens isStatement) :=
  yields_bind yields_advance fun _ placed => yields_then fun _ =>
    yields_pure (Node.Fill.nil.node placed rfl nofun rfl rfl)

variable (inside : deeper.WellSorted context)

include inside

/-! ## Parts of statements -/

theorem yields_parenthesizedCondition {word : String} :
    Yields context (parenthesizedCondition deeper word) (·.Is context.tokens isExpression) :=
  yields_then fun _ => yields_bind (yields_expression inside) fun _ is =>
    yields_then fun _ => yields_pure is

theorem yields_labelBody : Yields context (labelBody deeper) (·.Is context.tokens isLabelBody) := by
  refine yields_then fun _ => yields_ite (fun _ => ?_) fun _ => yields_then fun _ => ?_
  · exact yields_bind yields_location fun _ placed => yields_pure (is_empty placed rfl)
  · refine yields_ite (fun _ => ?_) fun _ => ?_
    · refine (yields_groupedDeclaration inside).mono fun _ is => is.mono ?_
      simp +contextual [isLabelBody]
    · refine inside.statement.mono fun _ is => is.mono ?_
      simp +contextual [isLabelBody]

theorem yields_optionalExpression {ending : Punctuator} :
    Yields context (optionalExpression deeper ending) (·.Is context.tokens isClause) := by
  refine yields_then fun _ => yields_ite (fun _ => ?_) fun _ => ?_
  · exact yields_bind yields_location fun _ placed => yields_pure (is_empty placed rfl)
  · refine (yields_expression inside).mono fun _ is => is.mono ?_
    simp +contextual [isClause]

/-! ## Branches and loops -/

theorem yields_ifStatement : Yields context (ifStatement deeper) (·.Is context.tokens isStatement) := by
  refine yields_bind yields_advance fun _ placed => ?_
  refine yields_bind (yields_parenthesizedCondition inside) fun _ condition => ?_
  refine yields_bind inside.statement fun _ taken => yields_then fun _ => ?_
  refine yields_optional inside.statement fun _ otherwise => yields_pure ?_
  exact (Node.Fill.one condition (.one taken (.lastOptional otherwise))).node placed rfl nofun rfl rfl

theorem yields_whileLoop : Yields context (whileLoop deeper) (·.Is context.tokens isStatement) := by
  refine yields_bind yields_advance fun _ placed => ?_
  refine yields_bind (yields_parenthesizedCondition inside) fun _ condition => ?_
  refine yields_bind inside.statement fun _ body => yields_pure ?_
  exact (Node.Fill.one condition (.one body .nil)).node placed rfl nofun rfl rfl

theorem yields_doWhileLoop : Yields context (doWhileLoop deeper) (·.Is context.tokens isStatement) := by
  refine yields_bind yields_advance fun _ placed => ?_
  refine yields_bind inside.statement fun _ body => yields_then fun _ => ?_
  refine yields_bind (yields_parenthesizedCondition inside) fun _ condition => yields_then fun _ => ?_
  exact yields_pure ((Node.Fill.one body (.one condition .nil)).node placed rfl nofun rfl rfl)

theorem yields_forBeginning :
    Yields context (forBeginning deeper) (·.Is context.tokens isLoopBeginning) := by
  refine yields_then fun _ => yields_then fun _ => yields_ite (fun _ => ?_) fun _ => ?_
  · refine (yields_groupedDeclaration inside).mono fun _ is => is.mono ?_
    simp +contextual [isLoopBeginning]
  · refine yields_bind (yields_optionalExpression inside) fun _ is => yields_then fun _ => ?_
    exact yields_pure (is.mono (by simp +contextual [isLoopBeginning]))

theorem yields_forLoop : Yields context (forLoop deeper) (·.Is context.tokens isStatement) := by
  refine yields_bind yields_advance fun _ placed => yields_inNewScope (yields_then fun _ => ?_)
  refine yields_bind (yields_forBeginning inside) fun _ beginning => ?_
  refine yields_bind (yields_optionalExpression inside) fun _ condition => yields_then fun _ => ?_
  refine yields_bind (yields_optionalExpression inside) fun _ step => yields_then fun _ => ?_
  refine yields_bind inside.statement fun _ body => yields_pure ?_
  have fill := Node.Fill.one beginning (.one condition (.one step (.one body .nil)))
  exact fill.node placed rfl nofun rfl rfl

theorem yields_switchStatement :
    Yields context (switchStatement deeper) (·.Is context.tokens isStatement) := by
  refine yields_bind yields_advance fun _ placed => ?_
  refine yields_bind (yields_parenthesizedCondition inside) fun _ value => ?_
  refine yields_bind inside.statement fun _ body => yields_pure ?_
  exact (Node.Fill.one value (.one body .nil)).node placed rfl nofun rfl rfl

/-! ## Labels -/

theorem yields_caseLabel : Yields context (caseLabel deeper) (·.Is context.tokens isStatement) := by
  refine yields_bind yields_advance fun _ placed => ?_
  refine yields_bind inside.conditional fun _ low => yields_then fun _ => ?_
  refine yields_optional inside.conditional fun _ high => yields_then fun _ => ?_
  refine yields_bind (yields_labelBody inside) fun _ body => yields_pure ?_
  exact (Node.Fill.one low (.optional high (.one body .nil))).node placed rfl nofun rfl rfl

theorem yields_defaultLabel :
    Yields context (defaultLabel deeper) (·.Is context.tokens isStatement) := by
  refine yields_bind yields_advance fun _ placed => yields_then fun _ => ?_
  refine yields_bind (yields_labelBody inside) fun _ body => yields_pure ?_
  exact (Node.Fill.one body .nil).node placed rfl nofun rfl rfl

theorem yields_labeledStatement :
    Yields context (labeledStatement deeper) (·.Is context.tokens isStatement) := by
  refine yields_bind yields_advanceToken fun _ inText => yields_then fun _ => yields_then fun _ => ?_
  refine yields_bind (yields_labelBody inside) fun _ body => yields_pure ?_
  exact (Node.Fill.one body .nil).written inText (TokenStream.hasPlace_of_mem inText) rfl nofun rfl

/-! ## Jumps and expressions -/

theorem yields_returnStatement :
    Yields context (returnStatement deeper) (·.Is context.tokens isStatement) := by
  refine yields_bind yields_advance fun _ placed => yields_then fun _ => ?_
  refine yields_unless (yields_expression inside) fun _ value => yields_then fun _ => yields_pure ?_
  exact (Node.Fill.lastOptional value).node placed rfl nofun rfl rfl

theorem yields_gotoStatement :
    Yields context (gotoStatement deeper) (·.Is context.tokens isStatement) := by
  refine yields_bind yields_advance fun word placed => yields_then fun _ => ?_
  refine yields_ite (fun _ => ?_) fun _ => ?_
  · refine yields_bind (yields_expression inside) fun address is => ?_
    have node : (Node.ofChildren .indirectGoto word.location [address]).Is context.tokens
        isStatement :=
      (Node.Fill.one is .nil).node placed rfl nofun rfl rfl
    exact yields_bind (yields_pure node) fun _ is => yields_then fun _ => yields_pure is
  · refine yields_bind yields_expectToken fun label inText => ?_
    have node : (Node.named .gotoStatement word.location label.lexeme).Is context.tokens
        isStatement :=
      Node.Fill.nil.written inText placed rfl nofun rfl
    exact yields_bind (yields_pure node) fun _ is => yields_then fun _ => yields_pure is

theorem yields_expressionStatement :
    Yields context (expressionStatement deeper) (·.Is context.tokens isStatement) := by
  refine yields_bind yields_location fun _ placed => ?_
  refine yields_bind (yields_expression inside) fun _ is => yields_then fun _ => yields_pure ?_
  exact (Node.Fill.one is .nil).node placed rfl nofun rfl rfl

theorem yields_statementRule :
    Yields context (statementRule deeper) (·.Is context.tokens isStatement) := by
  refine yields_then fun _ => yields_then fun token => ?_
  split
  · exact (yields_block inside).mono fun _ is => is.mono (by simp [isStatement])
  · exact yields_emptyStatement
  · exact yields_ifStatement inside
  · exact yields_whileLoop inside
  · exact yields_doWhileLoop inside
  · exact yields_forLoop inside
  · exact yields_switchStatement inside
  · exact yields_caseLabel inside
  · exact yields_defaultLabel inside
  · exact yields_returnStatement inside
  · exact yields_break
  · exact yields_continue
  · exact yields_gotoStatement inside
  · exact (yields_assembly inside).mono fun _ is => is.mono (by simp [isStatement])
  · refine yields_then fun _ => yields_ite (fun _ => yields_labeledStatement inside) fun _ => ?_
    exact yields_expressionStatement inside

/-! ## Levels -/

namespace Productions

theorem WellSorted.rules : (rules deeper).WellSorted context where
  assignment := yields_assignmentRule inside
  conditional := yields_conditionalRule inside
  cast := yields_castRule inside
  unary := yields_unaryRule inside
  initializerList := yields_initializerListRule inside
  statement := yields_statementRule inside
  specifiers _ := yields_specifiersRule inside
  declarator _ := yields_declaratorRule inside

omit inside

theorem yields_tooDeep {α : Type} {good : α → Prop} : Yields context tooDeep good :=
  yields_then fun _ => yields_giveUp

theorem wellSorted_exhausted : exhausted.WellSorted context where
  assignment := yields_tooDeep
  conditional := yields_tooDeep
  cast := yields_tooDeep
  unary := yields_tooDeep
  initializerList := yields_tooDeep
  statement := yields_tooDeep
  specifiers _ := yields_tooDeep
  declarator _ := yields_tooDeep

theorem wellSorted_ofLevels (levels : Nat) : (ofLevels levels).WellSorted context := by
  induction levels with
  | zero => exact wellSorted_exhausted
  | succ levels ih => exact ih.rules

end Productions

end

/-! ## Texts -/

section

open Parse Productions

variable {context : ParseContext} {level : Productions}

theorem yields_wholeText (inside : level.WellSorted context) :
    Yields context (StartRule.wholeText level) (Node.WellFormed context.tokens) := by
  have items : Yields context (externalDeclaration level)
      (Items.Are context.tokens NodeKind.isExternal) := by
    refine (yields_externalDeclaration inside).mono fun items found => ?_
    rcases found with declared | ⟨node, alone, is⟩
    · exact declared.mono (by simp +contextual [NodeKind.isExternal])
    · rw [Items.Are, alone]
      exact AllAre.singleton (is.mono (by simp [NodeKind.isExternal]))
  refine yields_bind yields_location fun place placed => ?_
  refine yields_bind (yields_recoveringItems items) fun nodes all => yields_pure ?_
  have is : (Node.ofChildren .program place nodes.toList).Is context.tokens (· == .program) :=
    (Node.Fill.lastMany all).node placed rfl nofun rfl rfl
  exact is.wellFormed

/-- Every rule leads to well-formed trees. -/
theorem yields_production (rule : StartRule) (inside : level.WellSorted context) :
    Yields context (rule.production level) (Node.WellFormed context.tokens) := by
  cases rule with
  | program => exact yields_wholeText inside
  | externalDeclaration =>
    refine yields_bind yields_location fun place placed => ?_
    refine yields_bind (yields_completed (yields_externalDeclaration inside)) fun nodes found => ?_
    rcases found with declared | ⟨node, alone, is⟩
    · have inBlock : AllAre context.tokens NodeKind.isBlockDeclaration nodes :=
        declared.mono (by simp +contextual [NodeKind.isBlockDeclaration])
      exact yields_pure (is_groupDeclarations placed inBlock).wellFormed
    · obtain rfl : nodes = #[node] := alone
      exact yields_pure is.wellFormed
  | declaration => exact (yields_groupedDeclaration inside).mono fun _ is => is.wellFormed
  | statement => exact inside.statement.mono fun _ is => is.wellFormed
  | compoundStatement => exact (yields_block inside).mono fun _ is => is.wellFormed
  | expression => exact (yields_expression inside).mono fun _ is => is.wellFormed
  | assignmentExpression => exact inside.assignment.mono fun _ is => is.wellFormed
  | typeName => exact (yields_typeName inside).mono fun _ is => is.wellFormed
  | initializer => exact (yields_initializer inside).mono fun _ is => is.wellFormed

theorem yields_fromRule (name : String) :
    Yields context (fromRule name) (Node.WellFormed context.tokens) := by
  intro state node next run
  unfold fromRule at run
  dsimp only at run
  split at run
  · exact yields_production _ (wellSorted_ofLevels maxNesting) state node next run
  · cases run

theorem yields_wholeRule (name : String) :
    Yields context (wholeRule name) (Node.WellFormed context.tokens) := by
  refine yields_bind (yields_fromRule name) fun _ wellFormed => yields_then fun _ => ?_
  exact yields_ite (fun _ => yields_then fun _ => yields_then fun _ => yields_pure wellFormed)
    fun _ => yields_pure wellFormed

variable {language : Language} {tokens : TokenStream} {diagnostics : Diagnostics}

theorem wellFormed_parseRule {name : String} {tree : Node}
    (parsed : (language.parseRule name tokens diagnostics).1 = some tree) :
    tree.WellFormed tokens := by
  unfold Language.parseRule at parsed
  split at parsed
  · rename_i run
    cases parsed
    exact yields_wholeRule name _ _ _ run
  · cases parsed

/-- Also the empty tree that is there in place of a tree. -/
theorem wellFormed_parse : (language.parse tokens diagnostics).1.WellFormed tokens := by
  unfold Language.parse
  split
  · rename_i run
    exact yields_fromRule _ _ _ _ run
  · rename_i state run
    have none : ∀ node ∈ ([] : List Node), node.Is tokens NodeKind.isExternal := by simp
    have is : (Node.leaf .program (tokens.get state.position).location .none).Is tokens
        (· == .program) :=
      (Node.Fill.lastMany none).node TokenStream.hasPlace_get rfl nofun rfl rfl
    exact is.wellFormed

/-- Whatever problems there are, the nodes of a tree look as their kinds demand and stand where tokens of
the text stand. -/
theorem trees_conform (language : Language) (tokens : TokenStream) (diagnostics : Diagnostics) :
    (∀ name tree, (language.parseRule name tokens diagnostics).1 = some tree →
      ∀ node ∈ tree.descendants, node.Conforms ∧ tokens.HasPlace node.location) ∧
    ∀ node ∈ (language.parse tokens diagnostics).1.descendants,
      node.Conforms ∧ tokens.HasPlace node.location := by
  constructor
  · intro name tree parsed node member
    have wellFormed := (wellFormed_parseRule parsed).of_mem_descendants member
    exact ⟨wellFormed.conforms, wellFormed.placed⟩
  · intro node member
    have wellFormed := wellFormed_parse.of_mem_descendants member
    exact ⟨wellFormed.conforms, wellFormed.placed⟩

/-- The text has a problem in it, and a tree. -/
theorem trees_conform_shadowing :
    ∃ tree,
      ((cLanguage ⟨.c17, true⟩).parseRule "translation_unit"
        (.ofWords BlockItems.shadowing.functionWords ⟨"<input>", 1, 1, 0⟩) .empty).1 = some tree ∧
      ∀ node ∈ tree.descendants, node.Conforms ∧
        (TokenStream.ofWords BlockItems.shadowing.functionWords ⟨"<input>", 1, 1, 0⟩).HasPlace
          node.location := by
  have plain : ∀ name ∈ BlockItems.shadowing.names, name ≠ "__builtin_va_list" := by decide
  have deep : BlockItems.shadowing.depth + 5 ≤ 1023 + 1 := by decide
  have isText : (TokenStream.ofWords BlockItems.shadowing.functionWords
      ⟨"<input>", 1, 1, 0⟩).body.toList.map Token.word = BlockItems.shadowing.functionWords := rfl
  obtain ⟨tree, next, read, ends, _⟩ := @wholeText_functionWords ⟨.c17, true⟩ _ _ _ deep plain isText
    .empty ⟨"<input>", 1, 1, 0⟩
  have parsed := congrArg Prod.fst (Language.parseRule_ok .program read ends)
  exact ⟨tree, parsed, (trees_conform _ _ _).1 "translation_unit" tree parsed⟩

end

end CFrontEnd
