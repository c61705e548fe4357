import CFrontEnd.Proofs.Conduct.Statements

/-!
The productions of the grammar by name, and how far each of them goes at the least.
-/

namespace CFrontEnd

open Parse Productions

/-- The productions of the grammar around those of one level, each with the number of tokens that a
result of it uses up at the least. -/
inductive IsProduction (level : Productions) : {α : Type} → Parse α → Nat → Prop
  -- what a level is made of
  | assignment : IsProduction level level.assignment 1
  | conditional : IsProduction level level.conditional 1
  | cast : IsProduction level level.cast 1
  | unary : IsProduction level level.unary 1
  | initializerList : IsProduction level level.initializerList 1
  | statement : IsProduction level level.statement 1
  | specifiers (admitsStorage : Bool) : IsProduction level (level.specifiers admitsStorage) 0
  | declarator (form : DeclaratorForm) : IsProduction level (level.declarator form) form.worth
  -- tokens that are asked for
  | expectPunctuator (punctuator : Punctuator) (what : String) :
    IsProduction level (Parse.expectPunctuator punctuator what) 1
  | expectOperator (operator : Operator) (what : String) :
    IsProduction level (expect (.operator operator) what) 1
  | expectIdentifier : IsProduction level Parse.expectIdentifier 1
  | skipAttributes : IsProduction level Parse.skipAttributes 0
  | skipBalanced (opener closer : Punctuator) (depth : Nat) :
    IsProduction level (Parse.skipBalanced opener closer depth) 0
  | stringLiteral : IsProduction level Parse.stringLiteral 1
  | stringText : IsProduction level Parse.stringText 1
  -- expressions
  | expression : IsProduction level level.expression 1
  | assignmentRule : IsProduction level (Productions.assignmentRule level) 1
  | conditionalRule : IsProduction level (Productions.conditionalRule level) 1
  | binary : IsProduction level (Productions.binary level) 1
  | binaryWithin (steps least : Nat) : IsProduction level (Productions.binaryWithin level steps least) 1
  | castRule : IsProduction level (Productions.castRule level) 1
  | unaryRule : IsProduction level (Productions.unaryRule level) 1
  | measure (ofExpression ofType : NodeKind) :
    IsProduction level (Productions.measure level ofExpression ofType) 1
  | suffixed : IsProduction level (Productions.suffixed level) 1
  | withSuffixes (base : Node) : IsProduction level (Productions.withSuffixes level base) 0
  | primary : IsProduction level (Productions.primary level) 1
  | genericSelection : IsProduction level (Productions.genericSelection level) 1
  | builtinOffsetof : IsProduction level (Productions.builtinOffsetof level) 1
  | compoundLiteral (place : SourceLocation) (type : Node) :
    IsProduction level (Productions.compoundLiteral level place type) 1
  | initializer : IsProduction level level.initializer 1
  | initializerListRule : IsProduction level (Productions.initializerListRule level) 1
  | initializerItem : IsProduction level (Productions.initializerItem level) 1
  -- specifiers
  | specifiersRule (admitsStorage : Bool) :
    IsProduction level (Productions.specifiersRule level admitsStorage) 0
  | baseType (specifiers : DeclarationSpecifiers) : IsProduction level (Parse.baseType specifiers) 0
  | alignment : IsProduction level (Productions.alignment level) 1
  | typeofType : IsProduction level (Productions.typeofType level) 1
  | structOrUnion : IsProduction level (Productions.structOrUnion level) 0
  | memberDeclaration : IsProduction level (completed (Productions.memberDeclaration level)) 1
  | enumeration : IsProduction level (Productions.enumeration level) 0
  -- declarators
  | declaratorRule (form : DeclaratorForm) :
    IsProduction level (Productions.declaratorRule level form) form.worth
  | pointerQualifiers : IsProduction level Productions.pointerQualifiers 0
  | directDeclarator (form : DeclaratorForm) :
    IsProduction level (Productions.directDeclarator level form) form.worth
  | arrayDerivation : IsProduction level (Productions.arrayDerivation level) 1
  | functionDerivation : IsProduction level (Productions.functionDerivation level) 0
  | parameterList : IsProduction level (Productions.parameterList level) 0
  | parameterDeclaration : IsProduction level (Productions.parameterDeclaration level) 1
  | assemblerName : IsProduction level assemblerName? 0
  | typeName : IsProduction level level.typeName 1
  -- declarations
  | externalDeclaration : IsProduction level (completed (Productions.externalDeclaration level)) 1
  | blockDeclaration : IsProduction level (completed (Productions.blockDeclaration level)) 1
  | declaration : IsProduction level (completed (Productions.declaration level none)) 1
  | topDeclaration :
    IsProduction level (completed (Productions.declaration level (some (functionBody level)))) 1
  | initDeclarators (specifiers : DeclarationSpecifiers) (base : Node) :
    IsProduction level (completed (Productions.initDeclarators level none specifiers base)) 1
  | topInitDeclarators (specifiers : DeclarationSpecifiers) (base : Node) :
    IsProduction level
      (completed (Productions.initDeclarators level (some (functionBody level)) specifiers base)) 1
  | functionDefinition (declaration : Node) :
    IsProduction level (Productions.functionDefinition declaration (functionBody level)) 1
  | staticAssertion : IsProduction level level.staticAssertion 1
  | labelDeclarations : IsProduction level (completed Productions.labelDeclarations) 1
  | groupedDeclaration : IsProduction level (Productions.groupedDeclaration level) 1
  -- statements
  | block : IsProduction level (Productions.block level) 1
  | functionBody : IsProduction level (Productions.functionBody level) 1
  | blockItem : IsProduction level (completed (Productions.blockItem level)) 1
  | statementRule : IsProduction level (Productions.statementRule level) 1
  | parenthesizedCondition (word : String) :
    IsProduction level (Productions.parenthesizedCondition level word) 1
  | ifStatement : IsProduction level (Productions.ifStatement level) 1
  | forLoop : IsProduction level (Productions.forLoop level) 1
  | labelBody : IsProduction level (Productions.labelBody level) 0
  | assembly : IsProduction level (Productions.assembly level) 1
  -- whole texts
  | wholeText : IsProduction level (StartRule.wholeText level) 0

variable {context : ParseContext} {known : List TokenKind} {level : Productions}

theorem proceeds_wholeText (inside : level.Conducted context) :
    Proceeds context known (StartRule.wholeText level) 0 := by
  refine leads_location fun _ => ?_
  exact leads_bind (proceeds_recoveringItems (leads_externalDeclaration inside)) fun _ => leads_pure rfl

theorem IsProduction.proceeds {α : Type} {production : Parse α} {least : Nat}
    (isProduction : IsProduction level production least) (inside : level.Conducted context) :
    Proceeds context known production least := by
  have noBody : ∀ block ∈ (none : Option (Parse Node)), Proceeds context [] block 1 := by simp
  have body : ∀ block ∈ some (Productions.functionBody level), Proceeds context [] block 1 := by
    rintro _ ⟨⟩
    exact proceeds_functionBody inside
  cases isProduction with
  | assignment => exact inside.assignment
  | conditional => exact inside.conditional
  | cast => exact inside.cast
  | unary => exact inside.unary
  | initializerList => exact inside.initializerList
  | statement => exact inside.statement
  | specifiers => exact inside.anySpecifiers _
  | declarator => exact inside.declarator _
  | expectPunctuator => exact proceeds_expect (by simp)
  | expectOperator => exact proceeds_expect (by simp)
  | expectIdentifier => exact proceeds_expectIdentifier
  | skipAttributes => exact proceeds_skipAttributes
  | skipBalanced => exact proceeds_skipBalanced
  | stringLiteral => exact proceeds_stringLiteral
  | stringText => exact proceeds_stringText
  | expression => exact proceeds_expression inside
  | assignmentRule => exact proceeds_assignmentRule inside
  | conditionalRule => exact proceeds_conditionalRule inside
  | binary => exact proceeds_binary inside
  | binaryWithin => exact proceeds_binaryWithin inside
  | castRule => exact proceeds_castRule inside
  | unaryRule => exact proceeds_unaryRule inside
  | measure => exact proceeds_measure inside
  | suffixed => exact proceeds_suffixed inside
  | withSuffixes => exact proceeds_withSuffixes inside
  | primary => exact proceeds_primary inside
  | genericSelection => exact proceeds_genericSelection inside
  | builtinOffsetof => exact proceeds_builtinOffsetof inside
  | compoundLiteral => exact proceeds_compoundLiteral inside
  | initializer => exact proceeds_initializer inside
  | initializerListRule => exact proceeds_initializerListRule inside
  | initializerItem => exact proceeds_initializerItem inside
  | specifiersRule => exact inside.rules.anySpecifiers _
  | baseType => exact proceeds_baseType
  | alignment => exact proceeds_alignment inside
  | typeofType => exact proceeds_typeofType inside
  | structOrUnion => exact proceeds_structOrUnion inside proceeds_advanceAny
  | memberDeclaration => exact proceeds_completed (leads_memberDeclaration inside)
  | enumeration => exact proceeds_enumeration inside proceeds_advanceAny
  | declaratorRule => exact proceeds_declaratorRule inside
  | pointerQualifiers => exact proceeds_pointerQualifiers
  | directDeclarator => exact proceeds_directDeclarator inside
  | arrayDerivation => exact proceeds_arrayDerivation inside
  | functionDerivation => exact proceeds_functionDerivation inside proceeds_advanceAny
  | parameterList => exact proceeds_parameterList inside
  | parameterDeclaration => exact proceeds_parameterDeclaration inside
  | assemblerName => exact proceeds_assemblerName?
  | typeName => exact proceeds_typeName inside
  | externalDeclaration => exact proceeds_completed (leads_externalDeclaration inside)
  | blockDeclaration => exact proceeds_completed (leads_blockDeclaration inside)
  | declaration => exact proceeds_completed (leads_declaration inside noBody)
  | topDeclaration => exact proceeds_completed (leads_declaration inside body)
  | initDeclarators => exact proceeds_completed (leads_initDeclarators inside noBody)
  | topInitDeclarators => exact proceeds_completed (leads_initDeclarators inside body)
  | functionDefinition => exact proceeds_functionDefinition (proceeds_functionBody inside)
  | staticAssertion => exact proceeds_staticAssertion inside
  | labelDeclarations => exact proceeds_completed leads_labelDeclarations
  | groupedDeclaration => exact proceeds_groupedDeclaration inside
  | block => exact proceeds_block inside
  | functionBody => exact proceeds_functionBody inside
  | blockItem => exact proceeds_completed (leads_blockItem inside)
  | statementRule => exact proceeds_statementRule inside
  | parenthesizedCondition => exact proceeds_parenthesizedCondition inside
  | ifStatement => exact proceeds_ifStatement inside
  | forLoop => exact proceeds_forLoop inside
  | labelBody => exact proceeds_labelBody inside
  | assembly => exact proceeds_assembly inside
  | wholeText => exact proceeds_wholeText inside

/-! ## Whole rules -/

theorem proceeds_production (rule : StartRule) (inside : level.Conducted context) :
    Proceeds context known (rule.production level) 0 := by
  cases rule with
  | program => exact proceeds_wholeText inside
  | externalDeclaration =>
    refine leads_location fun _ => ?_
    exact leads_bind (proceeds_completed (leads_externalDeclaration inside)) fun _ => leads_pure rfl
  | declaration => exact (proceeds_groupedDeclaration inside).any
  | statement => exact inside.statement.any
  | compoundStatement => exact (proceeds_block inside).any
  | expression => exact (proceeds_expression inside).any
  | assignmentExpression => exact inside.assignment.any
  | typeName => exact (proceeds_typeName inside).any
  | initializer => exact (proceeds_initializer inside).any

/-- The whole of a text is asked for only behind a result. -/
theorem proceeds_finishRule (name : String) (node : Node) :
    Proceeds context known (do
      if !(← atEnd) then
        let token ← peek
        complain token.location (.unfinishedRule token name)
      return node) 0 := by
  refine leads_ask (asks_peek.bind fun _ => asks_pure) fun _ => leads_ite (fun _ => ?_)
    fun _ => proceeds_pure
  exact leads_ask asks_peek fun _ => leads_complain (leads_pure rfl)

/-- A rule that can be parsed from goes forward, and one that the language does not know is a problem of
its own. -/
theorem wholeRule_cases (name : String) (state : ParseState) :
    Runs context state (wholeRule name) state (.atLeast 0) ∨
      ∃ place message, wholeRule name context state = .error .givenUp
        { state with diagnostics := state.diagnostics.report .internal place message } := by
  cases known : (if context.language.hasRule name then StartRule.ofName? name else none) with
  | none =>
    let message := "grammar rule '" ++ name ++ "' is not bound for " ++ context.language.name
    refine .inr ⟨(context.tokens.get state.position).location, message, ?_⟩
    rw [wholeRule, bind_apply]
    simp only [fromRule, known, message]
  | some rule =>
    have inside : Conducted context (ofLevels maxNesting) := conducted_ofLevels maxNesting
    have whole : Proceeds context [] (rule.production (ofLevels maxNesting) >>= fun node => do
        if !(← atEnd) then
          let token ← peek
          complain token.location (.unfinishedRule token name)
        return node) 0 :=
      leads_bind (proceeds_production rule inside) (proceeds_finishRule name)
    refine .inl (.of_eq ?_ whole.run)
    rw [wholeRule, bind_apply, bind_apply]
    simp only [fromRule, known]

/-! ## What is left of a run -/

/-- The state that a production leaves, whether it has a result or gives up. -/
def Parse.leaves {α : Type} (production : Parse α) (context : ParseContext) (state : ParseState) :
    ParseState :=
  match production context state with
  | .ok _ next => next
  | .error _ next => next

theorem Runs.leaves {α : Type} {production : Parse α} {state : ParseState} {use : Use α}
    (runs : Runs context state production state use) :
    Passed context state (production.leaves context state) := by
  unfold Parse.leaves
  split
  · rename_i value next run
    exact (runs.ok value next run).passed
  · rename_i reason next run
    exact (runs.error reason next run).passed

theorem wholeRule_leaves (name : String) (state : ParseState) :
    Passed context state ((wholeRule name).leaves context state) := by
  rcases wholeRule_cases name state with runs | ⟨place, message, run⟩
  · exact runs.leaves
  · unfold Parse.leaves
    rw [run]
    refine ⟨Nat.le_refl _, .nil, rfl, ?_, rfl⟩
    rw [Diagnostics.toList_report]
    exact List.prefix_append _ _

end CFrontEnd
