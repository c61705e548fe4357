import CFrontEnd.Grammar.Start
import CFrontEnd.Proofs.Likeness.Expressions

/-!
Statements of texts that are alike, and with them all productions of a level.
-/

namespace CFrontEnd

open Parse Productions

variable {twins : Twins} {deeper : Productions}

/-! ## Statements without parts -/

theorem agree_emptyStatement : ReadsAlike twins emptyStatement :=
  agree_bind agree_advance fun _ _ semicolon =>
    agree_pure (.intro semicolon.placed (.same nofun) .nil)

theorem agree_jump {kind : NodeKind} : ReadsAlike twins (jump kind) := by
  refine agree_bind agree_advance ?_
  rintro _ _ ⟨placed, _, written⟩
  refine agree_then (agree_expectSemicolonText ?_) fun _ => agree_pure (.intro placed (.same nofun) .nil)
  exact Likeness.writes_token written

theorem agree_emptyHere :
    ReadsAlike twins (do return .leaf .empty (← location) .none) :=
  agree_bind agree_location fun _ _ placed => agree_pure (.intro placed (.same nofun) .nil)

theorem agree_atLabel : Agree twins Eq atLabel atLabel := by
  refine agree_bind agree_peek ?_
  rintro _ _ ⟨_, _⟩
  refine agree_ite (agree_bind agree_peekAhead ?_) (agree_pure rfl)
  rintro _ _ ⟨_, _⟩
  exact agree_pure rfl

theorem agree_expectForSemicolon : Agree twins Eq expectForSemicolon expectForSemicolon :=
  agree_expectPunctuator (by decide)

variable (inside : deeper.AgreeOn twins)

include inside

/-! ## Parts of statements -/

theorem agree_parenthesizedCondition {word : List Char} (line : InLine word) :
    ReadsAlike twins (parenthesizedCondition deeper (String.ofList word)) := by
  refine agree_then (agree_expectPunctuatorText ?_) fun _ => ?_
  · exact Likeness.writes_between (Likeness.writes_words line) (by decide) (by decide)
  · exact agree_bind (agree_expression inside) fun _ _ condition =>
      agree_then agree_expectClosingParen fun _ => agree_pure condition

theorem agree_labelBody : ReadsAlike twins (labelBody deeper) :=
  agree_then agree_atPunctuator fun _ => agree_ite agree_emptyHere
    (agree_then agree_startsDeclaration fun _ =>
      agree_ite (agree_groupedDeclaration inside) inside.statement)

theorem agree_optionalExpression {ending : Punctuator} :
    ReadsAlike twins (optionalExpression deeper ending) :=
  agree_then agree_atPunctuator fun _ => agree_ite agree_emptyHere (agree_expression inside)

/-! ## Branches and loops -/

theorem agree_ifStatement : ReadsAlike twins (ifStatement deeper) := by
  refine agree_bind agree_advance fun _ _ word => ?_
  refine agree_bind (agree_parenthesizedCondition inside (by decide)) fun _ _ condition => ?_
  refine agree_bind inside.statement fun _ _ taken => agree_then agree_consume fun _ => ?_
  refine agree_optional inside.statement fun _ _ otherwise => agree_pure ?_
  exact .ofChildren word.placed (.cons condition (.cons taken (Nodes.Alike.optional otherwise)))

theorem agree_whileLoop : ReadsAlike twins (whileLoop deeper) := by
  refine agree_bind agree_advance fun _ _ word => ?_
  refine agree_bind (agree_parenthesizedCondition inside (by decide)) fun _ _ condition => ?_
  exact agree_bind inside.statement fun _ _ body =>
    agree_pure (.ofChildren word.placed (.cons condition (.cons body .nil)))

theorem agree_doWhileLoop : ReadsAlike twins (doWhileLoop deeper) := by
  refine agree_bind agree_advance fun _ _ word => agree_bind inside.statement fun _ _ body => ?_
  refine agree_then (agree_discard (agree_expect (by decide))) fun _ => ?_
  refine agree_bind (agree_parenthesizedCondition inside (by decide)) fun _ _ condition => ?_
  exact agree_then (agree_expectSemicolon (by decide)) fun _ =>
    agree_pure (.ofChildren word.placed (.cons body (.cons condition .nil)))

theorem agree_forBeginning : ReadsAlike twins (forBeginning deeper) := by
  refine agree_then agree_atPunctuator fun _ => agree_then agree_startsDeclaration fun _ => ?_
  refine agree_ite (agree_groupedDeclaration inside) ?_
  exact agree_bind (agree_optionalExpression inside) fun _ _ beginning =>
    agree_then agree_expectForSemicolon fun _ => agree_pure beginning

theorem agree_forLoop : ReadsAlike twins (forLoop deeper) := by
  refine agree_bind agree_advance fun _ _ word => agree_inNewScope ?_
  refine agree_then (agree_expectPunctuator (by decide)) fun _ => ?_
  refine agree_bind (agree_forBeginning inside) fun _ _ beginning => ?_
  refine agree_bind (agree_optionalExpression inside) fun _ _ condition => ?_
  refine agree_then agree_expectForSemicolon fun _ => ?_
  refine agree_bind (agree_optionalExpression inside) fun _ _ step => ?_
  refine agree_then agree_expectClosingParen fun _ => ?_
  refine agree_bind inside.statement fun _ _ body => agree_pure ?_
  exact .ofChildren word.placed (.cons beginning (.cons condition (.cons step (.cons body .nil))))

theorem agree_switchStatement : ReadsAlike twins (switchStatement deeper) := by
  refine agree_bind agree_advance fun _ _ word => ?_
  refine agree_bind (agree_parenthesizedCondition inside (by decide)) fun _ _ value => ?_
  exact agree_bind inside.statement fun _ _ body =>
    agree_pure (.ofChildren word.placed (.cons value (.cons body .nil)))

/-! ## Labels -/

theorem agree_caseLabel : ReadsAlike twins (caseLabel deeper) := by
  refine agree_bind agree_advance fun _ _ word => agree_bind inside.conditional fun _ _ low => ?_
  refine agree_then agree_consumeInGnu fun _ => agree_optional inside.conditional fun _ _ high => ?_
  refine agree_then (agree_expectPunctuator (by decide)) fun _ => ?_
  refine agree_bind (agree_labelBody inside) fun _ _ body => agree_pure ?_
  have upper := Nodes.Alike.append (Nodes.Alike.optional high) (Nodes.Alike.single body)
  exact .ofChildren word.placed (.cons low upper)

theorem agree_defaultLabel : ReadsAlike twins (defaultLabel deeper) := by
  refine agree_bind agree_advance fun _ _ word => agree_then (agree_expectPunctuator (by decide)) fun _ => ?_
  exact agree_bind (agree_labelBody inside) fun _ _ body =>
    agree_pure (.ofChildren word.placed (Nodes.Alike.single body))

theorem agree_labeledStatement : ReadsAlike twins (labeledStatement deeper) := by
  refine agree_bind agree_advance ?_
  rintro _ _ ⟨placed, _⟩
  refine agree_then agree_discard_advance fun _ => agree_then agree_skipAttributes fun _ => ?_
  exact agree_bind (agree_labelBody inside) fun _ _ body =>
    agree_pure (.intro placed (.same nofun) (Nodes.Alike.single body))

/-! ## Jumps and expressions -/

theorem agree_returnStatement : ReadsAlike twins (returnStatement deeper) := by
  refine agree_bind agree_advance fun _ _ word => agree_then agree_atPunctuator fun _ => ?_
  refine agree_unless (agree_expression inside) fun _ _ value => ?_
  exact agree_then (agree_expectSemicolon (by decide)) fun _ =>
    agree_pure (.ofChildren word.placed (Nodes.Alike.optional value))

theorem agree_gotoStatement : ReadsAlike twins (gotoStatement deeper) := by
  refine agree_bind agree_advance fun word other words => agree_then agree_consumeInGnu fun _ => ?_
  refine agree_ite ?_ ?_
  · refine agree_bind (agree_expression inside) fun address otherAddress addresses => ?_
    have jumps : Node.Alike twins.like (.ofChildren .indirectGoto word.location [address])
        (.ofChildren .indirectGoto other.location [otherAddress]) :=
      .ofChildren words.placed (Nodes.Alike.single addresses)
    exact agree_bind (agree_pure jumps) fun _ _ node =>
      agree_then (agree_expectSemicolon (by decide)) fun _ => agree_pure node
  · refine agree_bind agree_expectIdentifier ?_
    rintro ⟨_, name, _, _⟩ _ ⟨_, _⟩
    have jumps : Node.Alike twins.like (.named .gotoStatement word.location name)
        (.named .gotoStatement other.location name) :=
      .named words.placed
    exact agree_bind (agree_pure jumps) fun _ _ node =>
      agree_then (agree_expectSemicolon (by decide)) fun _ => agree_pure node

theorem agree_expressionStatement : ReadsAlike twins (expressionStatement deeper) :=
  agree_bind agree_location fun _ _ placed =>
    agree_bind (agree_expression inside) fun _ _ expression =>
      agree_then (agree_expectSemicolon (by decide)) fun _ =>
        agree_pure (.ofChildren placed (Nodes.Alike.single expression))

theorem agree_statementRule : ReadsAlike twins (statementRule deeper) := by
  refine agree_then agree_skipAttributes fun _ => agree_bind agree_peek ?_
  rintro _ _ ⟨_, _⟩
  dsimp only
  split
  · exact agree_block inside
  · exact agree_emptyStatement
  · exact agree_ifStatement inside
  · exact agree_whileLoop inside
  · exact agree_doWhileLoop inside
  · exact agree_forLoop inside
  · exact agree_switchStatement inside
  · exact agree_caseLabel inside
  · exact agree_defaultLabel inside
  · exact agree_returnStatement inside
  · exact agree_jump
  · exact agree_jump
  · exact agree_gotoStatement inside
  · exact agree_assembly inside
  · exact agree_then agree_atLabel fun _ =>
      agree_ite (agree_labeledStatement inside) (agree_expressionStatement inside)

/-! ## Levels -/

namespace Productions

theorem AgreeOn.rules : (rules deeper).AgreeOn twins where
  assignment := agree_assignmentRule inside
  conditional := agree_conditionalRule inside
  cast := agree_castRule inside
  unary := agree_unaryRule inside
  initializerList := agree_initializerListRule inside
  statement := agree_statementRule inside
  specifiers _ := agree_specifiersRule inside
  declarator _ := agree_declaratorRule inside

omit inside

theorem agree_tooDeep {α : Type} {alike : α → α → Prop} : Agree twins alike tooDeep tooDeep :=
  agree_bind agree_location fun _ _ placed => agree_giveUp placed rfl nofun

theorem agreeOn_exhausted : exhausted.AgreeOn twins where
  assignment := agree_tooDeep
  conditional := agree_tooDeep
  cast := agree_tooDeep
  unary := agree_tooDeep
  initializerList := agree_tooDeep
  statement := agree_tooDeep
  specifiers _ := agree_tooDeep
  declarator _ := agree_tooDeep

theorem agreeOn_ofLevels (levels : Nat) : (ofLevels levels).AgreeOn twins := by
  induction levels with
  | zero => exact agreeOn_exhausted
  | succ levels ih => exact ih.rules

end Productions

end CFrontEnd
