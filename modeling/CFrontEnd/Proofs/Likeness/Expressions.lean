import CFrontEnd.Grammar.Rules.Expressions
import CFrontEnd.Proofs.Likeness.Declarations

/-!
Expressions and initializers of texts that are alike. The level of an operator is a matter of its kind, so
that operands are grouped in one way on both sides.
-/

namespace CFrontEnd

open Parse Productions

variable {twins : Twins} {deeper : Productions} {place otherPlace : SourceLocation}

/-! ## Expressions without operands -/

theorem agree_literal {kind : LiteralKind} : ReadsAlike twins (literal kind) :=
  agree_bind agree_advance fun _ _ token =>
    agree_pure (.intro token.placed (.literal (token.literalOf kind)) .nil)

theorem agree_name : ReadsAlike twins name := by
  refine agree_bind agree_peek ?_
  rintro _ _ ⟨placed, _, written⟩
  have quoted := List.forall_mem_singleton.mpr written
  refine agree_then agree_isTypeName fun _ => agree_ite (agree_giveUp placed rfl quoted) ?_
  exact agree_then agree_discard_advance fun _ => agree_pure (.named placed)

theorem agree_truthValue {value : Bool} : ReadsAlike twins (truthValue value) :=
  agree_bind agree_advance fun _ _ word => agree_pure (.intro word.placed (.same nofun) .nil)

theorem agree_nullPointer : ReadsAlike twins nullPointer :=
  agree_bind agree_advance fun _ _ word => agree_pure (.intro word.placed (.same nofun) .nil)

theorem agree_labelAddress : ReadsAlike twins labelAddress := by
  refine agree_bind agree_advance fun _ _ symbol => agree_bind agree_advance ?_
  rintro _ _ ⟨_, _⟩
  exact agree_pure (.named symbol.placed)

theorem agree_fieldDesignator : ReadsAlike twins fieldDesignator := by
  refine agree_bind agree_expectIdentifier ?_
  rintro _ _ ⟨placed, _⟩
  exact agree_pure (.named placed)

theorem agree_expectComma : Agree twins Eq expectComma expectComma := agree_expectPunctuator (by decide)

theorem agree_expectBracketEnd : Agree twins Eq expectBracketEnd expectBracketEnd :=
  agree_expectPunctuator (by decide)

theorem agree_listOf {item : Parse Node} (reads : ReadsAlike twins item) :
    Agree twins (Nodes.Alike twins.like) (listOf item) (listOf item) :=
  agree_completed (agree_separatedItems reads)

/-! ## Operators between operands -/

theorem agree_atAssignment? : Agree twins Eq atAssignment? atAssignment? := by
  rintro state _ ⟨recorded⟩
  unfold atAssignment?
  dsimp only
  rw [twins.language, (twins.tokens.get state.position).kind]
  exact .ok rfl (.intro recorded)

theorem agree_atBinary? {least : Nat} : Agree twins Eq (atBinary? least) (atBinary? least) := by
  rintro state _ ⟨recorded⟩
  unfold atBinary?
  dsimp only
  rw [twins.language, (twins.tokens.get state.position).kind]
  exact .ok rfl (.intro recorded)

variable (inside : deeper.AgreeOn twins)

include inside

theorem agree_assignmentRule : ReadsAlike twins (assignmentRule deeper) := by
  refine agree_bind inside.conditional fun _ _ target => agree_then agree_atAssignment? fun found => ?_
  split
  · exact agree_pure target
  · refine agree_bind agree_location fun _ _ placed => agree_then agree_discard_advance fun _ => ?_
    exact agree_bind inside.assignment fun _ _ value =>
      agree_pure (.ofChildren placed (.cons target (.cons value .nil)))

theorem agree_binaryWithin {steps least : Nat} :
    ReadsAlike twins (binaryWithin deeper steps least) := by
  induction steps generalizing least with
  | zero => exact inside.cast
  | succ steps ih =>
    rw [binaryWithin]
    refine agree_bind inside.cast fun _ _ first => agree_iterate first fun _ _ left => ?_
    refine agree_then agree_atBinary? fun found => ?_
    split
    · exact agree_pure (.done left)
    · refine agree_bind agree_location fun _ _ placed => agree_then agree_discard_advance fun _ => ?_
      exact agree_bind ih fun _ _ right =>
        agree_pure (.yield (.ofChildren placed (.cons left (.cons right .nil))))

theorem agree_binary : ReadsAlike twins (binary deeper) := by
  intro state partner states
  unfold binary
  rw [states.remaining]
  exact agree_binaryWithin inside state partner states

theorem agree_conditionalRule : ReadsAlike twins (conditionalRule deeper) := by
  refine agree_bind (agree_binary inside) fun _ _ condition => ?_
  refine agree_bind agree_location fun _ _ placed => agree_then agree_consume fun _ => ?_
  refine agree_ite (agree_pure condition) (agree_then agree_consumeInGnu fun _ => agree_ite ?_ ?_)
  · exact agree_bind inside.conditional fun _ _ otherwise =>
      agree_pure (.ofChildren placed (.cons condition (.cons otherwise .nil)))
  · refine agree_bind (agree_expression inside) fun _ _ value => ?_
    refine agree_then (agree_expectPunctuator (by decide)) fun _ => ?_
    exact agree_bind inside.conditional fun _ _ otherwise =>
      agree_pure (.ofChildren placed (.cons condition (.cons value (.cons otherwise .nil))))

/-! ## Primary expressions -/

theorem agree_parenthesized : ReadsAlike twins (parenthesized deeper) := by
  refine agree_bind agree_advance fun _ _ opening => agree_then agree_isGnu fun _ => ?_
  refine agree_then agree_atPunctuator fun _ => agree_ite ?_ ?_
  · refine agree_bind (agree_block inside) fun _ _ body => ?_
    exact agree_then (agree_expectPunctuator (by decide)) fun _ =>
      agree_pure (.ofChildren opening.placed (Nodes.Alike.single body))
  · exact agree_bind (agree_expression inside) fun _ _ inner =>
      agree_then agree_expectClosingParen fun _ => agree_pure inner

theorem agree_genericAssociation : ReadsAlike twins (genericAssociation deeper) := by
  refine agree_bind agree_location fun _ _ placed => agree_then agree_consume fun _ => ?_
  refine agree_ite (agree_then (agree_expectPunctuator (by decide)) fun _ => ?_) ?_
  · exact agree_bind inside.assignment fun _ _ value =>
      agree_pure (.ofChildren placed (Nodes.Alike.single value))
  · refine agree_bind (agree_typeName inside) fun _ _ type => ?_
    refine agree_then (agree_expectPunctuator (by decide)) fun _ => ?_
    exact agree_bind inside.assignment fun _ _ value =>
      agree_pure (.ofChildren placed (.cons type (.cons value .nil)))

theorem agree_genericSelection : ReadsAlike twins (genericSelection deeper) := by
  refine agree_bind agree_advance fun _ _ word => agree_then (agree_expectPunctuator (by decide)) fun _ => ?_
  refine agree_bind inside.assignment fun _ _ controlling => agree_then agree_expectComma fun _ => ?_
  refine agree_bind (agree_listOf (agree_genericAssociation inside)) fun _ _ associations => ?_
  exact agree_then agree_expectClosingParen fun _ =>
    agree_pure (.ofChildren word.placed (.cons controlling associations))

theorem agree_builtinVaArg : ReadsAlike twins (builtinVaArg deeper) := by
  refine agree_bind agree_advance fun _ _ word => agree_then (agree_expectPunctuator (by decide)) fun _ => ?_
  refine agree_bind inside.assignment fun _ _ arguments => agree_then agree_expectComma fun _ => ?_
  refine agree_bind (agree_typeName inside) fun _ _ type => ?_
  exact agree_then agree_expectClosingParen fun _ =>
    agree_pure (.ofChildren word.placed (.cons arguments (.cons type .nil)))

theorem agree_builtinTypesCompatible : ReadsAlike twins (builtinTypesCompatible deeper) := by
  refine agree_bind agree_advance fun _ _ word => agree_then (agree_expectPunctuator (by decide)) fun _ => ?_
  refine agree_bind (agree_typeName inside) fun _ _ first => agree_then agree_expectComma fun _ => ?_
  refine agree_bind (agree_typeName inside) fun _ _ second => ?_
  exact agree_then agree_expectClosingParen fun _ =>
    agree_pure (.ofChildren word.placed (.cons first (.cons second .nil)))

theorem agree_memberPath :
    Agree twins (Nodes.Alike twins.like) (memberPath deeper) (memberPath deeper) := by
  refine agree_bind agree_fieldDesignator fun _ _ first =>
    agree_iterate (Nodes.Alike.single first) fun _ _ path => ?_
  refine agree_bind agree_location fun _ _ placed => agree_then agree_consume fun _ => agree_ite ?_ ?_
  · exact agree_bind agree_fieldDesignator fun _ _ member =>
      agree_pure (.yield (Nodes.Alike.push path member))
  · refine agree_then agree_consumePunctuator fun _ => agree_ite ?_ (agree_pure (.done path))
    refine agree_bind (agree_expression inside) fun _ _ index => ?_
    refine agree_then agree_expectBracketEnd fun _ => agree_pure (.yield ?_)
    exact Nodes.Alike.push path (.ofChildren placed (Nodes.Alike.single index))

theorem agree_builtinOffsetof : ReadsAlike twins (builtinOffsetof deeper) := by
  refine agree_bind agree_advance fun _ _ word => agree_then (agree_expectPunctuator (by decide)) fun _ => ?_
  refine agree_bind (agree_typeName inside) fun _ _ type => agree_then agree_expectComma fun _ => ?_
  refine agree_bind (agree_memberPath inside) fun _ _ path => ?_
  exact agree_then agree_expectClosingParen fun _ =>
    agree_pure (.ofChildren word.placed (.cons type path))

theorem agree_primary : ReadsAlike twins (primary deeper) := by
  refine agree_bind agree_peek ?_
  rintro _ _ ⟨_, _⟩
  dsimp only
  split
  · exact agree_name
  · exact agree_stringLiteral
  · exact agree_literal
  · exact agree_truthValue
  · exact agree_truthValue
  · exact agree_nullPointer
  · exact agree_parenthesized inside
  · exact agree_genericSelection inside
  · exact agree_builtinVaArg inside
  · exact agree_builtinOffsetof inside
  · exact agree_builtinTypesCompatible inside
  · exact agree_unexpected (by decide)

/-! ## What follows an operand -/

theorem agree_callArguments :
    Agree twins (Nodes.Alike twins.like) (callArguments deeper) (callArguments deeper) :=
  agree_then agree_atPunctuator fun _ =>
    agree_ite (agree_pure .nil) (agree_listOf inside.assignment)

omit inside in
theorem agree_memberOf {kind : NodeKind} {base other : Node}
    (placed : twins.like.places place otherPlace) (based : base.Alike twins.like other) :
    Agree twins (StepsAlike (Node.Alike twins.like))
      (do
        let member ← expectIdentifier
        return .yield ⟨kind, place, .name member.lexeme, [base]⟩)
      (do
        let member ← expectIdentifier
        return .yield ⟨kind, otherPlace, .name member.lexeme, [other]⟩) := by
  refine agree_bind agree_expectIdentifier ?_
  rintro _ _ ⟨_, _⟩
  exact agree_pure (.yield (.intro placed (.same nofun) (Nodes.Alike.single based)))

theorem agree_addSuffix {base other : Node} (based : base.Alike twins.like other) :
    Agree twins (StepsAlike (Node.Alike twins.like)) (addSuffix deeper base)
      (addSuffix deeper other) := by
  refine agree_bind agree_peek ?_
  rintro _ _ ⟨placed, _⟩
  dsimp only
  split
  · refine agree_then agree_discard_advance fun _ => ?_
    refine agree_bind (agree_expression inside) fun _ _ index => ?_
    exact agree_then agree_expectBracketEnd fun _ =>
      agree_pure (.yield (.ofChildren placed (.cons based (.cons index .nil))))
  · refine agree_then agree_discard_advance fun _ => ?_
    refine agree_bind (agree_callArguments inside) fun _ _ arguments => ?_
    exact agree_then (agree_expectPunctuator (by decide)) fun _ =>
      agree_pure (.yield (.ofChildren placed (.cons based arguments)))
  · exact agree_then agree_discard_advance fun _ => agree_memberOf placed based
  · exact agree_then agree_discard_advance fun _ => agree_memberOf placed based
  · exact agree_then agree_discard_advance fun _ =>
      agree_pure (.yield (.ofChildren placed (Nodes.Alike.single based)))
  · exact agree_then agree_discard_advance fun _ =>
      agree_pure (.yield (.ofChildren placed (Nodes.Alike.single based)))
  · exact agree_pure (.done based)

theorem agree_withSuffixes {base other : Node} (based : base.Alike twins.like other) :
    Agree twins (Node.Alike twins.like) (withSuffixes deeper base) (withSuffixes deeper other) :=
  agree_iterate based fun _ _ => agree_addSuffix inside

theorem agree_compoundLiteral {type other : Node} (placed : twins.like.places place otherPlace)
    (types : type.Alike twins.like other) :
    Agree twins (Node.Alike twins.like) (compoundLiteral deeper place type)
      (compoundLiteral deeper otherPlace other) :=
  agree_bind inside.initializerList fun _ _ values =>
    agree_withSuffixes inside (.ofChildren placed (.cons types (.cons values .nil)))

/-! ## What precedes an operand -/

theorem agree_measure {ofExpression ofType : NodeKind} :
    ReadsAlike twins (measure deeper ofExpression ofType) := by
  refine agree_bind agree_advance fun _ _ word => agree_then agree_atParenthesizedType fun _ => ?_
  refine agree_ite (agree_bind agree_location fun _ _ opening => ?_) ?_
  · refine agree_bind (agree_parenthesizedTypeName inside) fun _ _ type => ?_
    refine agree_then agree_atPunctuator fun _ => agree_ite ?_ ?_
    · exact agree_bind (agree_compoundLiteral inside opening type) fun _ _ operand =>
        agree_pure (.ofChildren word.placed (Nodes.Alike.single operand))
    · exact agree_pure (.ofChildren word.placed (Nodes.Alike.single type))
  · exact agree_bind inside.unary fun _ _ operand =>
      agree_pure (.ofChildren word.placed (Nodes.Alike.single operand))

omit inside in
theorem agree_applied {operator : UnaryOperator} {operand : Parse Node}
    (reads : ReadsAlike twins operand) : ReadsAlike twins (applied operator operand) :=
  agree_bind agree_advance fun _ _ symbol => agree_bind reads fun _ _ inner =>
    agree_pure (.ofChildren symbol.placed (Nodes.Alike.single inner))

omit inside in
theorem agree_atLabelAddress : Agree twins Eq atLabelAddress atLabelAddress := by
  refine agree_then agree_isGnu fun _ => agree_then agree_atOperator fun _ => ?_
  refine agree_ite (agree_bind agree_peekAhead ?_) (agree_pure rfl)
  rintro _ _ ⟨_, _⟩
  exact agree_pure rfl

theorem agree_suffixed : ReadsAlike twins (suffixed deeper) :=
  agree_bind (agree_primary inside) fun _ _ => agree_withSuffixes inside

theorem agree_unaryRule : ReadsAlike twins (unaryRule deeper) := by
  refine agree_then agree_atLabelAddress fun _ => agree_ite agree_labelAddress ?_
  refine agree_bind agree_peek ?_
  rintro _ _ ⟨_, _⟩
  dsimp only
  split
  · exact agree_applied inside.unary
  · exact agree_applied inside.unary
  · split
    · exact agree_applied inside.cast
    · exact agree_suffixed inside
  · exact agree_measure inside
  · exact agree_measure inside
  · exact agree_then agree_discard_advance fun _ => inside.cast
  · exact agree_suffixed inside

theorem agree_castRule : ReadsAlike twins (castRule deeper) := by
  refine agree_then agree_atParenthesizedType fun _ => agree_ite ?_ inside.unary
  refine agree_bind agree_location fun _ _ placed => ?_
  refine agree_bind (agree_parenthesizedTypeName inside) fun _ _ type => ?_
  refine agree_then agree_atPunctuator fun _ =>
    agree_ite (agree_compoundLiteral inside placed type) ?_
  exact agree_bind inside.cast fun _ _ operand =>
    agree_pure (.ofChildren placed (.cons type (.cons operand .nil)))

/-! ## Initializers -/

theorem agree_indexDesignator (placed : twins.like.places place otherPlace) :
    Agree twins (Node.Alike twins.like) (indexDesignator deeper place)
      (indexDesignator deeper otherPlace) := by
  refine agree_bind inside.conditional fun low otherLow lows => ?_
  refine agree_then agree_consumePunctuator fun _ => agree_ite ?_ ?_
  · refine agree_bind inside.conditional fun high otherHigh highs => ?_
    have range : Node.Alike twins.like (.ofChildren .rangeDesignator place [low, high])
        (.ofChildren .rangeDesignator otherPlace [otherLow, otherHigh]) :=
      .ofChildren placed (.cons lows (.cons highs .nil))
    exact agree_bind (agree_pure range) fun _ _ designator =>
      agree_then agree_expectBracketEnd fun _ => agree_pure designator
  · have index : Node.Alike twins.like (.ofChildren .indexDesignator place [low])
        (.ofChildren .indexDesignator otherPlace [otherLow]) :=
      .ofChildren placed (Nodes.Alike.single lows)
    exact agree_bind (agree_pure index) fun _ _ designator =>
      agree_then agree_expectBracketEnd fun _ => agree_pure designator

theorem agree_designators :
    Agree twins (Nodes.Alike twins.like) (designators deeper) (designators deeper) := by
  refine agree_iterate .nil fun _ _ path => agree_bind agree_location fun _ _ placed => ?_
  refine agree_then agree_consume fun _ => agree_ite ?_ ?_
  · exact agree_bind agree_fieldDesignator fun _ _ field =>
      agree_pure (.yield (Nodes.Alike.push path field))
  · refine agree_then agree_consumePunctuator fun _ => agree_ite ?_ (agree_pure (.done path))
    exact agree_bind (agree_indexDesignator inside placed) fun _ _ index =>
      agree_pure (.yield (Nodes.Alike.push path index))

omit inside in
theorem agree_atColonDesignator : Agree twins Eq atColonDesignator atColonDesignator := by
  refine agree_bind agree_peek ?_
  rintro _ _ ⟨_, _⟩
  refine agree_then agree_isGnu fun _ => agree_ite (agree_bind agree_peekAhead ?_) (agree_pure rfl)
  rintro _ _ ⟨_, _⟩
  exact agree_pure rfl

theorem agree_initializerItem : ReadsAlike twins (initializerItem deeper) := by
  refine agree_bind agree_location fun _ _ placed => agree_then agree_atColonDesignator fun _ => ?_
  refine agree_ite ?_ (agree_bind (agree_designators inside) fun path otherPath paths => ?_)
  · refine agree_bind agree_fieldDesignator fun _ _ field => ?_
    refine agree_then agree_discard_advance fun _ => ?_
    exact agree_bind (agree_initializer inside) fun _ _ value =>
      agree_pure (.ofChildren placed (.cons field (.cons value .nil)))
  · rw [Nodes.Alike.isEmpty paths]
    refine agree_ite (agree_initializer inside) ?_
    refine agree_then (agree_discard (agree_expect (by decide))) fun _ => ?_
    exact agree_bind (agree_initializer inside) fun _ _ value =>
      agree_pure (.ofChildren placed (Nodes.Alike.push paths value))

theorem agree_initializerListRule : ReadsAlike twins (initializerListRule deeper) := by
  refine agree_bind (agree_expect (by decide)) fun _ _ opening => ?_
  refine agree_bind (agree_iterate .nil fun _ _ items => ?_) fun _ _ items =>
    agree_then (agree_expectPunctuator (by decide)) fun _ => agree_pure (.ofChildren opening.placed items)
  refine agree_then agree_atPunctuator fun _ => agree_ite (agree_pure (.done items)) ?_
  refine agree_bind (agree_initializerItem inside) fun _ _ item => ?_
  have more := Nodes.Alike.push items item
  exact agree_then agree_consumePunctuator fun _ =>
    agree_ite (agree_pure (.yield more)) (agree_pure (.done more))

end CFrontEnd
