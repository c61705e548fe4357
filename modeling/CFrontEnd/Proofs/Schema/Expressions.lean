import CFrontEnd.Proofs.Schema.Declarations
import CFrontEnd.Grammar.Rules.Expressions

/-!
Expressions and initializers: what is read around an operator, a call or a type are the operands that the
node is to have.
-/

namespace CFrontEnd

open Parse Productions
open NodeKind (isType isExpression isAssociation isInitializer isInitializerItem isMemberStep
  isDesignator)

variable {tokens : TokenStream} {context : ParseContext} {deeper : Productions}

theorem yields_listOf {item : Parse Node} {sort : NodeKind → Bool}
    (yields : Yields context item (·.Is context.tokens sort)) :
    Yields context (listOf item) fun nodes =>
      AllAre context.tokens sort nodes ∧ nodes ≠ #[] :=
  (yields_completed (yields_separatedItems yields)).mono fun _ holds => ⟨holds.1, holds.2 rfl⟩

/-! ## Operands without parts -/

theorem Token.kind_literalOf (token : Token) (kind : LiteralKind) :
    (token.literalOf kind).kind = kind := by
  unfold literalOf
  cases kept : token.value.filter fun value => decide (value.kind = kind) with
  | none => cases kind <;> rfl
  | some value => exact of_decide_eq_true (Option.filter_eq_some_iff.mp kept).2

theorem yields_literal {kind : LiteralKind} :
    Yields context (literal kind) (·.Is context.tokens isExpression) := by
  refine yields_bind yields_advance fun token placed => yields_pure ?_
  have form : (Payload.literal (token.literalOf kind)).form = .literal kind := by
    rw [Payload.form, token.kind_literalOf]
  cases kind with
  | integer => exact Node.Fill.nil.node placed form nofun rfl rfl
  | floating => exact Node.Fill.nil.node placed form nofun rfl rfl
  | character => exact Node.Fill.nil.node placed form nofun rfl rfl
  | string => exact Node.Fill.nil.node placed form nofun rfl rfl

theorem yields_name : Yields context name (·.Is context.tokens isExpression) := by
  refine yields_bind yields_peekToken fun token inText => yields_then fun _ => ?_
  refine yields_ite (fun _ => yields_giveUp) fun _ => yields_then fun _ => yields_pure ?_
  exact Node.Fill.nil.written inText (TokenStream.hasPlace_of_mem inText) rfl nofun rfl

theorem yields_truthValue {value : Bool} :
    Yields context (truthValue value) (·.Is context.tokens isExpression) :=
  yields_bind yields_advance fun _ placed => yields_pure (Node.Fill.nil.node placed rfl nofun rfl rfl)

theorem yields_nullPointer : Yields context nullPointer (·.Is context.tokens isExpression) :=
  yields_bind yields_advance fun _ placed => yields_pure (Node.Fill.nil.node placed rfl nofun rfl rfl)

theorem yields_labelAddress : Yields context labelAddress (·.Is context.tokens isExpression) :=
  yields_bind yields_advance fun _ placed => yields_bind yields_advanceToken fun _ inText =>
    yields_pure (Node.Fill.nil.written inText placed rfl nofun rfl)

theorem yields_fieldDesignator :
    Yields context fieldDesignator (·.Is context.tokens (· == .fieldDesignator)) :=
  yields_bind yields_expectToken fun _ inText =>
    yields_pure (Node.Fill.nil.written inText (TokenStream.hasPlace_of_mem inText) rfl nofun rfl)

variable (inside : deeper.WellSorted context)

include inside

/-! ## Primary expressions -/

theorem yields_parenthesized :
    Yields context (parenthesized deeper) (·.Is context.tokens isExpression) := by
  refine yields_bind yields_advance fun _ placed => yields_then fun _ => yields_then fun _ => ?_
  refine yields_ite (fun _ => ?_) fun _ => ?_
  · refine yields_bind (yields_block inside) fun _ is => yields_then fun _ => yields_pure ?_
    exact (Node.Fill.one is .nil).node placed rfl nofun rfl rfl
  · exact yields_bind (yields_expression inside) fun _ is => yields_then fun _ => yields_pure is

theorem yields_genericAssociation :
    Yields context (genericAssociation deeper) (·.Is context.tokens isAssociation) := by
  refine yields_bind yields_location fun _ placed => yields_then fun _ => ?_
  refine yields_ite (fun _ => yields_then fun _ => ?_) fun _ => ?_
  · refine yields_bind inside.assignment fun _ value => yields_pure ?_
    exact (Node.Fill.one value .nil).node placed rfl nofun rfl rfl
  · refine yields_bind (yields_typeName inside) fun _ type => yields_then fun _ => ?_
    refine yields_bind inside.assignment fun _ value => yields_pure ?_
    exact (Node.Fill.one type (.one value .nil)).node placed rfl nofun rfl rfl

/-- There is an association at least. -/
theorem yields_genericSelection :
    Yields context (genericSelection deeper) (·.Is context.tokens isExpression) := by
  refine yields_bind yields_advance fun word placed => yields_then fun _ => ?_
  refine yields_bind inside.assignment fun controlling is => yields_then fun _ => ?_
  refine yields_bind (yields_listOf (yields_genericAssociation inside)) fun nodes found => ?_
  have some : nodes.toList ≠ [] := fun none => found.2 (Array.toList_eq_nil_iff.mp none)
  have associations := Node.Fill.oneOrMore found.1 some .nil
  rw [List.append_nil] at associations
  exact yields_then fun _ => yields_pure ((Node.Fill.one is associations).node placed rfl nofun rfl rfl)

theorem yields_builtinVaArg :
    Yields context (builtinVaArg deeper) (·.Is context.tokens isExpression) := by
  refine yields_bind yields_advance fun _ placed => yields_then fun _ => ?_
  refine yields_bind inside.assignment fun _ arguments => yields_then fun _ => ?_
  refine yields_bind (yields_typeName inside) fun _ type => yields_then fun _ => yields_pure ?_
  exact (Node.Fill.one arguments (.one type .nil)).node placed rfl nofun rfl rfl

theorem yields_builtinTypesCompatible :
    Yields context (builtinTypesCompatible deeper) (·.Is context.tokens isExpression) := by
  refine yields_bind yields_advance fun _ placed => yields_then fun _ => ?_
  refine yields_bind (yields_typeName inside) fun _ first => yields_then fun _ => ?_
  refine yields_bind (yields_typeName inside) fun _ second => yields_then fun _ => yields_pure ?_
  exact (Node.Fill.one first (.one second .nil)).node placed rfl nofun rfl rfl

/-- A member, and behind it members and indices. -/
theorem yields_memberPath :
    Yields context (memberPath deeper) fun path =>
      Node.Fill context.tokens [.one (· == .fieldDesignator), .many isMemberStep] path.toList := by
  refine yields_bind yields_fieldDesignator fun first isField => ?_
  let keeps : Array Node → Prop := fun path =>
    ∃ steps, path = #[first] ++ steps ∧ AllAre context.tokens isMemberStep steps
  have further : ∀ {path : Array Node} {node : Node}, keeps path →
      node.Is context.tokens isMemberStep → keeps (path.push node) := by
    rintro _ node ⟨steps, rfl, all⟩ is
    exact ⟨steps.push node, by simp, all.push is⟩
  have begins : keeps #[first] := ⟨#[], rfl, AllAre.empty⟩
  refine (yields_iterateKeeping begins fun path kept => ?_).mono ?_
  · refine yields_bind yields_location fun place placed => yields_then fun _ => ?_
    refine yields_ite (fun _ => ?_) fun _ => yields_then fun _ => yields_ite (fun _ => ?_) fun _ => ?_
    · refine yields_bind yields_fieldDesignator fun node field => yields_pure ?_
      have more := further kept (field.mono (by simp [isMemberStep]))
      exact ⟨more, more⟩
    · refine yields_bind (yields_expression inside) fun index is => yields_then fun _ => yields_pure ?_
      have step : (Node.ofChildren .indexDesignator place [index]).Is context.tokens isMemberStep :=
        (Node.Fill.one is .nil).node placed rfl nofun rfl rfl
      have more := further kept step
      exact ⟨more, more⟩
    · exact yields_pure kept
  · rintro _ ⟨steps, rfl, all⟩
    rw [Array.toList_append]
    exact .one isField (.lastMany all)

theorem yields_builtinOffsetof :
    Yields context (builtinOffsetof deeper) (·.Is context.tokens isExpression) := by
  refine yields_bind yields_advance fun _ placed => yields_then fun _ => ?_
  refine yields_bind (yields_typeName inside) fun _ type => yields_then fun _ => ?_
  refine yields_bind (yields_memberPath inside) fun _ path => yields_then fun _ => yields_pure ?_
  exact (Node.Fill.one type path).node placed rfl nofun rfl rfl

theorem yields_primary : Yields context (primary deeper) (·.Is context.tokens isExpression) := by
  refine yields_then fun token => ?_
  split
  · exact yields_name
  · exact yields_stringLiteral.mono fun _ is => is.mono (by simp [isExpression])
  · exact yields_literal
  · exact yields_truthValue
  · exact yields_truthValue
  · exact yields_nullPointer
  · exact yields_parenthesized inside
  · exact yields_genericSelection inside
  · exact yields_builtinVaArg inside
  · exact yields_builtinOffsetof inside
  · exact yields_builtinTypesCompatible inside
  · exact yields_unexpected

/-! ## What follows an operand -/

theorem yields_callArguments :
    Yields context (callArguments deeper) (AllAre context.tokens isExpression) := by
  refine yields_then fun _ => yields_ite (fun _ => yields_pure AllAre.empty) fun _ => ?_
  exact (yields_listOf inside.assignment).mono fun _ found => found.1

theorem yields_addSuffix {base : Node} (is : base.Is context.tokens isExpression) :
    Yields context (addSuffix deeper base)
      (Stepped (·.Is context.tokens isExpression) (·.Is context.tokens isExpression)) := by
  have further : ∀ node : Node, node.Is context.tokens isExpression →
      Yields context (pure (.yield node))
        (Stepped (·.Is context.tokens isExpression) (·.Is context.tokens isExpression)) :=
    fun node more => yields_pure ⟨more, more⟩
  refine yields_bind yields_peek fun token placed => ?_
  have ofBase := Node.Fill.one is .nil
  dsimp only
  split
  · refine yields_then fun _ => yields_bind (yields_expression inside) fun _ index => ?_
    refine yields_then fun _ => further _ ?_
    exact (Node.Fill.one is (.one index .nil)).node placed rfl nofun rfl rfl
  · refine yields_then fun _ => yields_bind (yields_callArguments inside) fun _ arguments => ?_
    refine yields_then fun _ => further _ ?_
    exact (Node.Fill.one is (.lastMany arguments)).node placed rfl nofun rfl rfl
  · exact yields_then fun _ => yields_bind yields_expectToken fun _ inText =>
      further _ (ofBase.written inText placed rfl nofun rfl)
  · exact yields_then fun _ => yields_bind yields_expectToken fun _ inText =>
      further _ (ofBase.written inText placed rfl nofun rfl)
  · exact yields_then fun _ => further _ (ofBase.node placed rfl nofun rfl rfl)
  · exact yields_then fun _ => further _ (ofBase.node placed rfl nofun rfl rfl)
  · exact yields_pure is

theorem yields_withSuffixes {base : Node} (is : base.Is context.tokens isExpression) :
    Yields context (withSuffixes deeper base) (·.Is context.tokens isExpression) :=
  yields_iterateKeeping is fun _ => yields_addSuffix inside

theorem yields_compoundLiteral {place : SourceLocation} {type : Node}
    (placed : context.tokens.HasPlace place) (isType : type.Is context.tokens isType) :
    Yields context (compoundLiteral deeper place type) (·.Is context.tokens isExpression) := by
  refine yields_bind inside.initializerList fun _ values => yields_withSuffixes inside ?_
  exact (Node.Fill.one isType (.one values .nil)).node placed rfl nofun rfl rfl

/-! ## What precedes an operand -/

theorem yields_measure {ofExpression ofType : NodeKind}
    (measures : ∀ {place operand}, context.tokens.HasPlace place →
      operand.Is context.tokens isExpression →
      (Node.ofChildren ofExpression place [operand]).Is context.tokens isExpression)
    (measuresType : ∀ {place type}, context.tokens.HasPlace place → type.Is context.tokens isType →
      (Node.ofChildren ofType place [type]).Is context.tokens isExpression) :
    Yields context (measure deeper ofExpression ofType) (·.Is context.tokens isExpression) := by
  refine yields_bind yields_advance fun _ placed => yields_then fun _ => ?_
  refine yields_ite (fun _ => ?_) fun _ => ?_
  · refine yields_bind yields_location fun _ opening => ?_
    refine yields_bind (yields_parenthesizedTypeName inside) fun _ type => yields_then fun _ => ?_
    refine yields_ite (fun _ => ?_) fun _ => yields_pure (measuresType placed type)
    exact yields_bind (yields_compoundLiteral inside opening type) fun _ operand =>
      yields_pure (measures placed operand)
  · exact yields_bind inside.unary fun _ operand => yields_pure (measures placed operand)

omit inside in
theorem yields_applied {operator : UnaryOperator} {operand : Parse Node}
    (yields : Yields context operand (·.Is context.tokens isExpression)) :
    Yields context (applied operator operand) (·.Is context.tokens isExpression) :=
  yields_bind yields_advance fun _ placed => yields_bind yields fun _ is =>
    yields_pure ((Node.Fill.one is .nil).node placed rfl nofun rfl rfl)

theorem yields_suffixed : Yields context (suffixed deeper) (·.Is context.tokens isExpression) :=
  yields_bind (yields_primary inside) fun _ is => yields_withSuffixes inside is

theorem yields_unaryRule : Yields context (unaryRule deeper) (·.Is context.tokens isExpression) := by
  refine yields_then fun _ => yields_ite (fun _ => yields_labelAddress) fun _ => ?_
  refine yields_then fun token => ?_
  split
  · exact yields_applied inside.unary
  · exact yields_applied inside.unary
  · split
    · exact yields_applied inside.cast
    · exact yields_suffixed inside
  · exact yields_measure inside
      (fun placed is => (Node.Fill.one is .nil).node placed rfl nofun rfl rfl)
      fun placed is => (Node.Fill.one is .nil).node placed rfl nofun rfl rfl
  · exact yields_measure inside
      (fun placed is => (Node.Fill.one is .nil).node placed rfl nofun rfl rfl)
      fun placed is => (Node.Fill.one is .nil).node placed rfl nofun rfl rfl
  · exact yields_then fun _ => inside.cast
  · exact yields_suffixed inside

theorem yields_castRule : Yields context (castRule deeper) (·.Is context.tokens isExpression) := by
  refine yields_then fun _ => yields_ite (fun _ => ?_) fun _ => inside.unary
  refine yields_bind yields_location fun _ placed => ?_
  refine yields_bind (yields_parenthesizedTypeName inside) fun _ type => yields_then fun _ => ?_
  refine yields_ite (fun _ => yields_compoundLiteral inside placed type) fun _ => ?_
  refine yields_bind inside.cast fun _ operand => yields_pure ?_
  exact (Node.Fill.one type (.one operand .nil)).node placed rfl nofun rfl rfl

/-! ## Operators between operands -/

theorem yields_binaryWithin {steps least : Nat} :
    Yields context (binaryWithin deeper steps least) (·.Is context.tokens isExpression) := by
  induction steps generalizing least with
  | zero => exact inside.cast
  | succ steps ih =>
    rw [binaryWithin]
    refine yields_bind inside.cast fun _ first => yields_iterateKeeping first fun left isLeft => ?_
    refine yields_then fun found => ?_
    split
    · exact yields_pure isLeft
    · rename_i operator rightLevel
      refine yields_bind yields_location fun place placed => yields_then fun _ => ?_
      refine yields_bind ih fun right isRight => yields_pure ?_
      have is : (Node.ofChildren (.binary operator) place [left, right]).Is context.tokens
          isExpression :=
        (Node.Fill.one isLeft (.one isRight .nil)).node placed rfl nofun rfl rfl
      exact ⟨is, is⟩

theorem yields_binary : Yields context (binary deeper) (·.Is context.tokens isExpression) :=
  fun _ value next run => yields_binaryWithin inside _ value next run

theorem yields_conditionalRule :
    Yields context (conditionalRule deeper) (·.Is context.tokens isExpression) := by
  refine yields_bind (yields_binary inside) fun _ condition => ?_
  refine yields_bind yields_location fun _ placed => yields_then fun _ => ?_
  refine yields_ite (fun _ => yields_pure condition) fun _ => yields_then fun _ => ?_
  refine yields_ite (fun _ => ?_) fun _ => ?_
  · refine yields_bind inside.conditional fun _ otherwise => yields_pure ?_
    exact (Node.Fill.one condition (.one otherwise .nil)).node placed rfl nofun rfl rfl
  · refine yields_bind (yields_expression inside) fun _ value => yields_then fun _ => ?_
    refine yields_bind inside.conditional fun _ otherwise => yields_pure ?_
    exact (Node.Fill.one condition (.one value (.one otherwise .nil))).node placed rfl nofun rfl rfl

theorem yields_assignmentRule :
    Yields context (assignmentRule deeper) (·.Is context.tokens isExpression) := by
  refine yields_bind inside.conditional fun _ target => yields_then fun found => ?_
  split
  · exact yields_pure target
  · refine yields_bind yields_location fun _ placed => yields_then fun _ => ?_
    refine yields_bind inside.assignment fun _ value => yields_pure ?_
    exact (Node.Fill.one target (.one value .nil)).node placed rfl nofun rfl rfl

/-! ## Initializers -/

theorem yields_indexDesignator {place : SourceLocation} (placed : context.tokens.HasPlace place) :
    Yields context (indexDesignator deeper place) (·.Is context.tokens isDesignator) := by
  refine yields_bind inside.conditional fun low isLow => yields_then fun _ => ?_
  refine yields_ite (fun _ => yields_bind inside.conditional fun high isHigh => ?_) fun _ => ?_
  · have is : (Node.ofChildren .rangeDesignator place [low, high]).Is context.tokens isDesignator :=
      (Node.Fill.one isLow (.one isHigh .nil)).node placed rfl nofun rfl rfl
    exact yields_bind (yields_pure is) fun _ is => yields_then fun _ => yields_pure is
  · have is : (Node.ofChildren .indexDesignator place [low]).Is context.tokens isDesignator :=
      (Node.Fill.one isLow .nil).node placed rfl nofun rfl rfl
    exact yields_bind (yields_pure is) fun _ is => yields_then fun _ => yields_pure is

theorem yields_designators :
    Yields context (designators deeper) (AllAre context.tokens isDesignator) := by
  refine yields_iterateKeeping AllAre.empty fun path all => ?_
  refine yields_bind yields_location fun _ placed => yields_then fun _ => yields_ite (fun _ => ?_)
    fun _ => ?_
  · refine yields_bind yields_fieldDesignator fun _ field => yields_pure ?_
    have more := all.push (field.mono (by simp [isDesignator, isMemberStep]))
    exact ⟨more, more⟩
  · refine yields_then fun _ => yields_ite (fun _ => ?_) fun _ => yields_pure all
    refine yields_bind (yields_indexDesignator inside placed) fun _ is => yields_pure ?_
    have more := all.push is
    exact ⟨more, more⟩

/-- A value has designators in front of it, or stands for itself. -/
theorem yields_initializerItem :
    Yields context (initializerItem deeper) (·.Is context.tokens isInitializerItem) := by
  have plain : Yields context deeper.initializer (·.Is context.tokens isInitializerItem) :=
    (yields_initializer inside).mono fun _ is => is.mono (by simp +contextual [isInitializerItem])
  refine yields_bind yields_location fun _ placed => yields_then fun _ => yields_ite (fun _ => ?_)
    fun _ => ?_
  · refine yields_bind yields_fieldDesignator fun _ field => yields_then fun _ => ?_
    refine yields_bind (yields_initializer inside) fun value is => yields_pure ?_
    have designators : AllAre context.tokens isDesignator #[_] :=
      AllAre.singleton (field.mono (by simp [isDesignator, isMemberStep]))
    exact (Node.Fill.oneOrMore designators nofun (.one is .nil)).node placed rfl nofun rfl rfl
  · refine yields_bind (yields_designators inside) fun path all => yields_ite (fun _ => plain)
      fun some => ?_
    refine yields_then fun _ => yields_bind (yields_initializer inside) fun value is => yields_pure ?_
    have notNil : path.toList ≠ [] := by simpa using some
    have fill := Node.Fill.oneOrMore all notNil (.one is .nil)
    rw [Array.toList_push]
    exact fill.node placed rfl nofun rfl rfl

theorem yields_initializerListRule :
    Yields context (initializerListRule deeper) (·.Is context.tokens (· == .initializerList)) := by
  refine yields_bind yields_expect fun _ placed => ?_
  refine yields_bind (yields_iterateKeeping AllAre.empty fun items all => ?_) fun _ all =>
    yields_then fun _ => yields_pure ((Node.Fill.lastMany all).node placed rfl nofun rfl rfl)
  refine yields_then fun _ => yields_ite (fun _ => yields_pure all) fun _ => ?_
  refine yields_bind (yields_initializerItem inside) fun _ is => yields_then fun _ => ?_
  have more := all.push is
  exact yields_ite (fun _ => yields_pure ⟨more, more⟩) fun _ => yields_pure more

end CFrontEnd
