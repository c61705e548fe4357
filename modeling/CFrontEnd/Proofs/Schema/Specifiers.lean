import CFrontEnd.Proofs.Schema.Rules
import CFrontEnd.Grammar.Rules.Specifiers

/-!
Trees of types, and what the productions of one level lead to: specifiers and declarators that types can
be made of, and nodes of the sorts that are asked for.
-/

namespace CFrontEnd

open Parse Productions
open NodeKind (isType isExpression isStatement isInitializer isMember isTypeOrExpression)

variable {tokens : TokenStream} {context : ParseContext} {deeper : Productions}

/-! ## Types from their parts -/

theorem Qualifiers.is_apply {qualifiers : Qualifiers} {place : SourceLocation} {type : Node}
    (placed : tokens.HasPlace place) (is : type.Is tokens isType) :
    (qualifiers.apply place type).Is tokens isType := by
  unfold apply
  split
  · exact is
  · exact (Node.Fill.one is .nil).node placed rfl nofun rfl rfl

namespace TypeDerivation

/-- The step stands in the text, and what is written in it is of the sorts that belong there. -/
inductive WellSorted (tokens : TokenStream) : TypeDerivation → Prop
  | pointer {place : SourceLocation} {qualifiers : Qualifiers} (placed : tokens.HasPlace place) :
    WellSorted tokens (.pointer place qualifiers)
  | array {place : SourceLocation} {qualifiers : Qualifiers} {isStatic isStar : Bool}
    {length : Option Node} (placed : tokens.HasPlace place)
    (sized : ∀ node ∈ length, node.Is tokens isExpression) :
    WellSorted tokens (.array place qualifiers isStatic isStar length)
  | function {place : SourceLocation} {parameters : List Node} {isVariadic isPrototyped : Bool}
    (placed : tokens.HasPlace place)
    (declared : ∀ node ∈ parameters, node.Is tokens (· == .parameterDeclaration)) :
    WellSorted tokens (.function place parameters isVariadic isPrototyped)

theorem WellSorted.is_apply {derivation : TypeDerivation} {base : Node}
    (sorted : derivation.WellSorted tokens)
    (is : base.Is tokens isType) : (derivation.apply base).Is tokens isType := by
  cases sorted with
  | pointer placed =>
    exact Qualifiers.is_apply placed ((Node.Fill.one is .nil).node placed rfl nofun rfl rfl)
  | array placed sized =>
    exact (Node.Fill.one is (.lastOptional sized)).node placed rfl nofun rfl rfl
  | function placed declared =>
    exact (Node.Fill.one is (.lastMany declared)).node placed rfl nofun rfl rfl

/-- All of the steps are such. -/
def AllSorted (tokens : TokenStream) (derivations : List TypeDerivation) : Prop :=
  ∀ derivation ∈ derivations, derivation.WellSorted tokens

theorem AllSorted.nil : AllSorted tokens [] := by simp [AllSorted]

end TypeDerivation

/-- The declarator and all of its steps stand in the text. -/
structure Declarator.WellSorted (tokens : TokenStream) (declarator : Declarator) : Prop where
  placed : tokens.HasPlace declarator.location
  named : ∀ name ∈ declarator.name, tokens.HasName name
  derivations : TypeDerivation.AllSorted tokens declarator.derivations

namespace Declarator.WellSorted

variable {declarator : Declarator}

theorem append (sorted : declarator.WellSorted tokens) {derivations : List TypeDerivation}
    (more : TypeDerivation.AllSorted tokens derivations) :
    (declarator.append derivations).WellSorted tokens := by
  refine ⟨sorted.placed, sorted.named, fun derivation member => ?_⟩
  exact (List.mem_append.mp member).elim (sorted.derivations derivation) (more derivation)

theorem is_type (sorted : declarator.WellSorted tokens) {base : Node} (is : base.Is tokens isType) :
    (declarator.type base).Is tokens isType := by
  obtain ⟨name, place, derivations⟩ := declarator
  have all := sorted.derivations
  unfold Declarator.type
  induction derivations with
  | nil => exact is
  | cons derivation derivations ih =>
    obtain ⟨outermost, inner⟩ := List.forall_mem_cons.mp all
    exact outermost.is_apply (ih ⟨sorted.placed, sorted.named, inner⟩ inner)

end Declarator.WellSorted

/-- What the specifiers hold are types and alignments. -/
structure DeclarationSpecifiers.WellSorted (tokens : TokenStream) (specifiers : DeclarationSpecifiers) :
    Prop where
  placed : tokens.HasPlace specifiers.location
  alignments : AllAre tokens (· == .alignment) specifiers.alignments
  named : ∀ type ∈ specifiers.named, type.Is tokens isType

/-- The productions of a level lead to what their names say. -/
structure Productions.WellSorted (context : ParseContext) (level : Productions) : Prop where
  assignment : Yields context level.assignment (·.Is context.tokens isExpression)
  conditional : Yields context level.conditional (·.Is context.tokens isExpression)
  cast : Yields context level.cast (·.Is context.tokens isExpression)
  unary : Yields context level.unary (·.Is context.tokens isExpression)
  initializerList :
    Yields context level.initializerList (·.Is context.tokens (· == .initializerList))
  statement : Yields context level.statement (·.Is context.tokens isStatement)
  specifiers : ∀ admitsStorage,
    Yields context (level.specifiers admitsStorage) (·.WellSorted context.tokens)
  declarator : ∀ form, Yields context (level.declarator form) (·.WellSorted context.tokens)

/-! ## Strings -/

theorem yields_stringLiteral :
    Yields context stringLiteral (·.Is context.tokens (· == .stringLiteral)) :=
  yields_bind yields_location fun _ placed => yields_then fun _ =>
    yields_pure (Node.Fill.nil.node placed rfl nofun rfl rfl)

/-! ## Bodies -/

theorem yields_body {β : Type} {hasBody : Bool} {listed : Parse (Array Node)} {sort : NodeKind → Bool}
    {continuation : Array Node → Parse β} {last : β → Prop}
    (yields : Yields context listed (AllAre tokens sort))
    (rest : ∀ nodes, Node.Fill tokens (if hasBody then [.many sort] else []) nodes.toList →
      Yields context (continuation nodes) last) :
    Yields context
      (if hasBody = true then listed >>= continuation else pure #[] >>= continuation) last := by
  cases hasBody with
  | true => exact yields_bind yields fun nodes all => rest nodes (.lastMany all)
  | false => exact rest #[] .nil

/-! ## Types in front of declarators -/

variable {specifiers : DeclarationSpecifiers}

theorem yields_unqualifiedBaseType (sorted : specifiers.WellSorted context.tokens) :
    Yields context (unqualifiedBaseType specifiers) (·.Is context.tokens isType) := by
  have builtin : ∀ {name : String}, (∃ words, builtinTypeName? words = some name) →
      (Node.named .builtinType specifiers.location name).Is context.tokens isType := by
    intro name isName
    refine Node.Fill.nil.namedNode sorted.placed rfl nofun rfl fun _ other same => ?_
    obtain rfl := Option.some.inj same
    exact .inr isName
  have int := builtin ⟨[.intWord], rfl⟩
  unfold unqualifiedBaseType
  split
  · rename_i type named
    have is := sorted.named type named
    refine yields_ite (fun bitInt => yields_pure ?_) fun _ => yields_when (yields_pure is)
    rw [Bool.and_eq_true] at bitInt
    have kind : type.kind = .bitIntType := by simpa using bitInt.1
    obtain ⟨_, place, payload, children⟩ := type
    subst kind
    exact is.wellFormed.relabeled rfl rfl nofun rfl nofun
  · split
    · exact yields_then fun _ => yields_when (yields_pure int)
    · rename_i name isName
      exact yields_pure (builtin ⟨_, (writtenType_eq_named.mp isName).2⟩)
    · exact yields_then fun _ => yields_pure int

theorem yields_baseType (sorted : specifiers.WellSorted context.tokens) :
    Yields context (baseType specifiers) (·.Is context.tokens isType) :=
  yields_bind (yields_unqualifiedBaseType sorted) fun _ is =>
    yields_pure (Qualifiers.is_apply sorted.placed is)

variable (inside : deeper.WellSorted context)

include inside

/-! ## Through one level -/

theorem yields_expression : Yields context deeper.expression (·.Is context.tokens isExpression) := by
  refine yields_bind inside.assignment fun _ is => yields_iterateKeeping is fun left isLeft => ?_
  refine yields_bind yields_location fun place placed => yields_then fun _ => ?_
  refine yields_ite (fun _ => ?_) fun _ => yields_pure isLeft
  refine yields_bind inside.assignment fun right isRight => yields_pure ?_
  have is : (Node.ofChildren .comma place [left, right]).Is context.tokens isExpression :=
    (Node.Fill.one isLeft (.one isRight .nil)).node placed rfl nofun rfl rfl
  exact ⟨is, is⟩

theorem yields_typeName : Yields context deeper.typeName (·.Is context.tokens isType) := by
  refine yields_bind (inside.specifiers false) fun specifiers sorted => ?_
  refine yields_ite (fun _ => yields_unexpected) fun _ => ?_
  refine yields_bind (yields_baseType sorted) fun base is => ?_
  exact yields_bind (inside.declarator .abstract) fun _ sorted => yields_pure (sorted.is_type is)

theorem yields_initializer :
    Yields context deeper.initializer (·.Is context.tokens isInitializer) := by
  refine yields_then fun _ => yields_ite (fun _ => ?_) fun _ => ?_
  · exact inside.initializerList.mono fun _ is => is.mono (by simp [NodeKind.isInitializer])
  · exact inside.assignment.mono fun _ is => is.mono (by simp +contextual [NodeKind.isInitializer])

theorem yields_parenthesizedTypeName :
    Yields context deeper.parenthesizedTypeName (·.Is context.tokens isType) :=
  yields_then fun _ => yields_bind (yields_typeName inside) fun _ is =>
    yields_then fun _ => yields_pure is

theorem yields_staticAssertion :
    Yields context deeper.staticAssertion (·.Is context.tokens (· == .staticAssertion)) := by
  refine yields_bind yields_location fun _ placed => yields_then fun _ => yields_then fun _ => ?_
  refine yields_bind inside.conditional fun _ condition => yields_then fun _ => ?_
  refine yields_optional yields_stringLiteral fun _ message => ?_
  refine yields_then fun _ => yields_then fun _ => yields_pure ?_
  exact (Node.Fill.one condition (.lastOptional message)).node placed rfl nofun rfl rfl

/-! ## Structures and unions -/

omit inside in
theorem yields_tagName :
    Yields context tagName fun found => ∀ name ∈ found, context.tokens.HasName name := by
  refine yields_then fun _ => yields_bind yields_optionalIdentifier fun found inText => yields_pure ?_
  intro name isName
  obtain ⟨token, isToken, rfl⟩ := Option.map_eq_some_iff.mp isName
  exact TokenStream.hasName_of_mem (inText token isToken)

omit inside in
theorem is_fieldDeclaration {place : SourceLocation} {name : Option String} {type : Node}
    {width : Option Node} (sorted : specifiers.WellSorted tokens) (placed : tokens.HasPlace place)
    (named : ∀ text ∈ name, tokens.HasName text) (is : type.Is tokens isType)
    (isWidth : ∀ node ∈ width, node.Is tokens isExpression) :
    (fieldDeclaration place name type specifiers width).Is tokens isMember :=
  (Node.Fill.one is (.many sorted.alignments (.lastOptional isWidth))).namedNode placed rfl nofun rfl
    fun _ => named

theorem yields_memberDeclarator {base : Node} (sorted : specifiers.WellSorted context.tokens)
    (is : base.Is context.tokens isType) :
    Yields context (memberDeclarator deeper specifiers base) (·.Is context.tokens isMember) := by
  refine yields_bind yields_location fun _ placed => yields_then fun _ => ?_
  refine yields_either (fun _ => yields_pure ⟨placed, nofun, .nil⟩)
    (fun _ => inside.declarator .named)
    fun declarator found => ?_
  refine yields_then fun _ => yields_optional inside.conditional fun _ isWidth => ?_
  refine yields_then fun _ => yields_pure ?_
  exact is_fieldDeclaration sorted found.placed found.named (found.is_type is) isWidth

theorem yields_memberDeclaration :
    Yields context (memberDeclaration deeper) (Items.Are context.tokens isMember) := by
  refine yields_then fun _ => yields_ite (fun _ => yields_pure AllAre.empty) fun _ => ?_
  refine yields_then fun _ => yields_ite (fun _ => ?_) fun _ => ?_
  · refine (yields_single (yields_staticAssertion inside)).mono fun _ all => all.mono ?_
    simp [NodeKind.isMember]
  · refine yields_bind yields_location fun _ placed => ?_
    refine yields_bind (inside.specifiers false) fun specifiers sorted => ?_
    refine yields_ite (fun _ => yields_unexpected) fun _ => ?_
    refine yields_bind (yields_baseType sorted) fun base is => yields_then fun _ => ?_
    refine yields_ite (fun _ => yields_pure ?_) fun _ => ?_
    · exact AllAre.singleton (is_fieldDeclaration sorted placed nofun is (by simp))
    · refine yields_bind (yields_separatedItems (yields_memberDeclarator inside sorted is)) ?_
      exact fun _ all => yields_thenFinish all.1

theorem yields_members :
    Yields context (members deeper) (AllAre context.tokens isMember) :=
  yields_then fun _ => yields_bind (yields_recoveringItems (yields_memberDeclaration inside))
    fun _ all => yields_then fun _ => yields_pure all

theorem yields_structOrUnion :
    Yields context (structOrUnion deeper) (·.Is context.tokens isType) := by
  refine yields_bind yields_advance fun word placed => yields_bind yields_tagName fun name named => ?_
  refine yields_then fun hasBody => yields_then fun _ => ?_
  refine yields_body (yields_members inside) fun nodes fill => yields_pure ?_
  cases word.isKeyword .structWord with
  | true =>
    have filled : Node.Fill context.tokens
        (NodeKind.structType.layout (.tag name hasBody)) nodes.toList := fill
    exact filled.namedNode placed rfl nofun rfl fun _ => named
  | false =>
    have filled : Node.Fill context.tokens
        (NodeKind.unionType.layout (.tag name hasBody)) nodes.toList := fill
    exact filled.namedNode placed rfl nofun rfl fun _ => named

/-! ## Enumerations -/

theorem yields_enumerator :
    Yields context (enumerator deeper) (·.Is context.tokens (· == .enumConstant)) := by
  refine yields_bind yields_expectToken fun _ inText => yields_then fun _ => yields_then fun _ => ?_
  refine yields_optional inside.conditional fun _ value => yields_then fun _ => yields_pure ?_
  exact (Node.Fill.lastOptional value).written inText (TokenStream.hasPlace_of_mem inText) rfl nofun rfl

theorem yields_enumerators :
    Yields context (enumerators deeper) (AllAre context.tokens (· == .enumConstant)) := by
  refine yields_then fun _ => yields_bind (yields_iterateKeeping AllAre.empty fun nodes all => ?_)
    fun _ all => yields_then fun _ => yields_pure all
  refine yields_bind (yields_enumerator inside) fun _ is => yields_then fun _ => ?_
  have more := all.push is
  refine yields_ite (fun _ => yields_pure more) fun _ => yields_then fun _ => ?_
  exact yields_ite (fun _ => yields_pure more) fun _ => yields_pure ⟨more, more⟩

theorem yields_underlyingType :
    Yields context (underlyingType deeper) fun found =>
      ∀ type ∈ found, type.Is context.tokens isType := by
  refine yields_then fun _ => yields_ite (fun _ => yields_then fun _ => yields_then fun _ => ?_)
    fun _ => yields_pure (by simp)
  refine yields_ite (fun _ => yields_then fun _ => ?_) fun _ => yields_pure (by simp)
  exact yields_map (yields_typeName inside) fun _ is => by simpa using is

theorem yields_enumeration :
    Yields context (enumeration deeper) (·.Is context.tokens isType) := by
  refine yields_bind yields_advance fun word placed => yields_bind yields_tagName fun name named => ?_
  refine yields_bind (yields_underlyingType inside) fun underlying isUnderlying => ?_
  refine yields_then fun hasBody => yields_then fun _ => ?_
  refine yields_body (yields_enumerators inside) fun nodes fill => yields_pure ?_
  have filled : Node.Fill context.tokens (NodeKind.enumType.layout (.tag name hasBody))
      (underlying.toList ++ nodes.toList) := .optional isUnderlying fill
  exact filled.namedNode placed rfl nofun rfl fun _ => named

/-! ## Types with an operand -/

theorem yields_typeNameOr {production : Parse Node}
    (yields : Yields context production (·.Is context.tokens isExpression)) :
    Yields context (typeNameOr deeper production) (·.Is context.tokens isTypeOrExpression) := by
  refine yields_then fun _ => yields_then fun _ => yields_ite (fun _ => ?_) fun _ => ?_
  · refine (yields_typeName inside).mono fun _ is => is.mono ?_
    simp +contextual [NodeKind.isTypeOrExpression]
  · refine yields.mono fun _ is => is.mono ?_
    simp +contextual [NodeKind.isTypeOrExpression]

theorem yields_alignment :
    Yields context (alignment deeper) (·.Is context.tokens (· == .alignment)) := by
  refine yields_bind yields_advance fun _ placed => yields_then fun _ => ?_
  refine yields_bind (yields_typeNameOr inside inside.conditional) fun _ operand => ?_
  exact yields_then fun _ => yields_pure ((Node.Fill.one operand .nil).node placed rfl nofun rfl rfl)

theorem yields_typeofType :
    Yields context (typeofType deeper) (·.Is context.tokens isType) := by
  refine yields_bind yields_advance fun _ placed => yields_then fun _ => ?_
  refine yields_bind (yields_typeNameOr inside (yields_expression inside)) fun _ operand => ?_
  exact yields_then fun _ => yields_pure ((Node.Fill.one operand .nil).node placed rfl nofun rfl rfl)

theorem yields_atomicType :
    Yields context (atomicType deeper) (·.Is context.tokens isType) :=
  yields_bind yields_advance fun _ placed =>
    yields_bind (yields_parenthesizedTypeName inside) fun _ is =>
      yields_pure ((Node.Fill.one is .nil).node placed rfl nofun rfl rfl)

theorem yields_bitIntType :
    Yields context (bitIntType deeper) (·.Is context.tokens isType) := by
  refine yields_bind yields_advance fun _ placed => yields_then fun _ => ?_
  refine yields_bind inside.conditional fun _ width => yields_then fun _ => yields_pure ?_
  exact (Node.Fill.one width .nil).node placed rfl nofun rfl rfl

theorem yields_namedType? {word : Keyword} {next : Token} {production : Parse Node}
    (found : namedType? deeper word next = some production) :
    Yields context production (·.Is context.tokens isType) := by
  unfold namedType? at found
  split at found
  · cases found
    exact yields_structOrUnion inside
  · cases found
    exact yields_structOrUnion inside
  · cases found
    exact yields_enumeration inside
  · cases found
    exact yields_typeofType inside
  · cases found
    exact yields_typeofType inside
  · cases found
    exact yields_bitIntType inside
  · split at found
    · cases found
      exact yields_atomicType inside
    · cases found
  · cases found

omit inside

/-! ## Specifiers -/

variable {token : Token}

theorem yields_addNamedType {type : Node} (sorted : specifiers.WellSorted tokens)
    (is : type.Is tokens isType) :
    Yields context (addNamedType specifiers token type) (·.WellSorted tokens) := by
  refine yields_ite (fun _ => yields_then fun _ => yields_pure sorted) fun _ => yields_pure ?_
  exact ⟨sorted.placed, sorted.alignments, by simpa using is⟩

theorem yields_addStorage {word : Keyword} {admitsStorage : Bool}
    (sorted : specifiers.WellSorted tokens) :
    Yields context (addStorage specifiers token word admitsStorage) (·.WellSorted tokens) := by
  refine yields_ite (fun _ => yields_then fun _ => yields_pure sorted) fun _ => ?_
  refine yields_ite (fun _ => yields_then fun _ => yields_pure sorted) fun _ => yields_pure ?_
  exact ⟨sorted.placed, sorted.alignments, sorted.named⟩

theorem yields_addWord? {word : Keyword} {admitsStorage : Bool}
    {addition : Parse DeclarationSpecifiers} (sorted : specifiers.WellSorted tokens)
    (found : addWord? specifiers token word admitsStorage = some addition) :
    Yields context addition (·.WellSorted tokens) := by
  obtain ⟨placed, alignments, named⟩ := sorted
  unfold addWord? at found
  split at found
  · cases found
    exact yields_pure ⟨placed, alignments, named⟩
  · cases found
    exact yields_pure ⟨placed, alignments, named⟩
  · cases found
    exact yields_pure ⟨placed, alignments, named⟩
  · cases found
    exact yields_when (yields_pure ⟨placed, alignments, named⟩)
  · split at found
    · cases found
      exact yields_addStorage ⟨placed, alignments, named⟩
    · split at found
      · cases found
        exact yields_pure ⟨placed, alignments, named⟩
      · cases found

theorem yields_yieldSpecifiers {production : Parse DeclarationSpecifiers}
    (yields : Yields context production (·.WellSorted tokens)) :
    Yields context (.yield <$> production)
      (Stepped (DeclarationSpecifiers.WellSorted tokens) (DeclarationSpecifiers.WellSorted tokens)) :=
  yields_map yields fun _ sorted => ⟨sorted, sorted⟩

theorem yields_addSpecifier (inside : deeper.WellSorted context) {admitsStorage : Bool}
    (sorted : specifiers.WellSorted context.tokens) :
    Yields context (addSpecifier deeper admitsStorage specifiers)
      (Stepped (DeclarationSpecifiers.WellSorted context.tokens)
        (DeclarationSpecifiers.WellSorted context.tokens)) := by
  have present :
      { specifiers with isPresent := true : DeclarationSpecifiers }.WellSorted context.tokens :=
    ⟨sorted.placed, sorted.alignments, sorted.named⟩
  refine yields_bind yields_peekToken fun token inText => ?_
  dsimp only
  -- The branches in their order: attributes, the mark of an extension, alignments, other
  -- keywords, names, and brackets of attributes.
  split
  · exact yields_then fun _ => yields_pure ⟨sorted, sorted⟩
  · exact yields_then fun _ => yields_pure ⟨sorted, sorted⟩
  · refine yields_bind (yields_alignment inside) fun node is => yields_pure ?_
    have more := sorted.alignments.push is
    exact ⟨⟨sorted.placed, more, sorted.named⟩, sorted.placed, more, sorted.named⟩
  · refine yields_then fun next => ?_
    split
    · rename_i production found
      refine yields_bind (yields_namedType? inside found) fun type is => ?_
      exact yields_yieldSpecifiers (yields_addNamedType present is)
    · split
      · rename_i addition found
        exact yields_then fun _ => yields_yieldSpecifiers (yields_addWord? present found)
      · exact yields_pure sorted
  · refine yields_then fun _ => yields_ite (fun _ => yields_then fun _ => yields_pure ?_)
      fun _ => yields_pure sorted
    have is : (Node.named .typedefName token.location token.lexeme).Is context.tokens isType :=
      Node.Fill.nil.written inText (TokenStream.hasPlace_of_mem inText) rfl nofun rfl
    have named : ∀ type ∈ some (Node.named .typedefName token.location token.lexeme),
        type.Is context.tokens isType := by simpa using is
    exact ⟨⟨sorted.placed, sorted.alignments, named⟩, sorted.placed, sorted.alignments, named⟩
  · refine yields_then fun _ => yields_ite (fun _ => yields_then fun _ => ?_)
      fun _ => yields_pure sorted
    exact yields_pure ⟨sorted, sorted⟩

theorem yields_specifiersRule (inside : deeper.WellSorted context) {admitsStorage : Bool} :
    Yields context (specifiersRule deeper admitsStorage) (·.WellSorted context.tokens) :=
  yields_bind yields_location fun _ placed =>
    yields_iterateKeeping ⟨placed, AllAre.empty, by simp⟩ fun _ => yields_addSpecifier inside

end CFrontEnd
