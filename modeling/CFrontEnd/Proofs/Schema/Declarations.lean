import CFrontEnd.Grammar.Rules.Declarations
import CFrontEnd.Grammar.Rules.Declarators
import CFrontEnd.Proofs.Schema.Specifiers

/-!
Declarators, declarations, function definitions and blocks. The steps of a declarator stand in the text,
and what is written in them is of the sorts that belong there. A function declaration gets its body behind
the returned type and the parameters, and one declaration stands for itself where a group would be.
-/

namespace CFrontEnd

section

open Parse Productions
open NodeKind (isType isExpression)

variable {tokens : TokenStream} {context : ParseContext} {deeper : Productions}
  (inside : deeper.WellSorted context)

theorem yields_pointers : Yields context pointers (TypeDerivation.AllSorted context.tokens) := by
  refine yields_iterateKeeping .nil fun nearest sorted => ?_
  refine yields_bind yields_location fun place placed => yields_then fun _ => ?_
  refine yields_ite (fun _ => yields_then fun qualifiers => yields_pure ?_) fun _ => yields_pure sorted
  have more : TypeDerivation.AllSorted context.tokens (.pointer place qualifiers :: nearest) :=
    List.forall_mem_cons.mpr ⟨.pointer placed, sorted⟩
  exact ⟨more, more⟩

include inside

/-! ## Parameters -/

theorem yields_parameterDeclaration :
    Yields context (parameterDeclaration deeper)
      (·.Is context.tokens (· == .parameterDeclaration)) := by
  refine yields_bind yields_location fun start placed => ?_
  refine yields_bind (inside.specifiers true) fun specifiers sorted => ?_
  refine yields_ite (fun _ => yields_then fun _ => ?_) fun _ => yields_when ?_
  · exact yields_ite (fun _ => yields_giveUp) fun _ => yields_unexpected
  · refine yields_bind (yields_baseType sorted) fun base is => ?_
    refine yields_bind (inside.declarator .either) fun declarator found => yields_then fun _ => ?_
    have type := found.is_type is
    have fill := Node.Fill.one type .nil
    have either : context.tokens.HasPlace
        (if declarator.name.isSome = true then declarator.location else start) := by
      split
      · exact found.placed
      · exact placed
    dsimp only
    split
    · exact yields_then fun _ => yields_pure (fill.namedNode either rfl nofun rfl fun _ => found.named)
    · exact yields_pure (fill.namedNode either rfl nofun rfl fun _ => found.named)

theorem yields_parameters :
    Yields context (parameters deeper) fun list =>
      AllAre context.tokens (· == .parameterDeclaration) list.nodes := by
  refine yields_iterateKeeping AllAre.empty fun list all => yields_then fun _ => ?_
  refine yields_ite (fun _ => yields_pure all) fun _ => ?_
  refine yields_bind (yields_parameterDeclaration inside) fun _ is => yields_then fun _ => ?_
  have more := all.push is
  exact yields_ite (fun _ => yields_pure ⟨more, more⟩) fun _ => yields_pure more

theorem yields_parameterList :
    Yields context (parameterList deeper) fun list =>
      AllAre context.tokens (· == .parameterDeclaration) list.nodes := by
  refine yields_then fun _ => yields_ite (fun _ => yields_pure AllAre.empty) fun _ => ?_
  refine yields_then fun _ => yields_then fun _ => yields_ite (fun _ => ?_) fun _ => ?_
  · exact yields_then fun _ => yields_then fun _ => yields_pure AllAre.empty
  · refine yields_then fun _ => yields_ite (fun _ => yields_giveUp) fun _ => ?_
    exact yields_bind (yields_parameters inside) fun _ all => yields_then fun _ => yields_pure all

theorem yields_functionDerivation :
    Yields context (functionDerivation deeper) (·.WellSorted context.tokens) :=
  yields_bind yields_location fun _ placed => yields_then fun _ =>
    yields_bind (yields_inNewScope (yields_parameterList inside)) fun _ declared =>
      yields_pure (.function placed declared)

theorem yields_arrayDerivation :
    Yields context (arrayDerivation deeper) (·.WellSorted context.tokens) := by
  refine yields_bind yields_location fun place placed => yields_then fun _ => ?_
  refine yields_then fun words => yields_then fun isStar => yields_when (yields_then fun _ => ?_)
  refine yields_unless inside.assignment fun length sized => ?_
  exact yields_then fun _ => yields_pure (.array placed sized)

/-! ## Declarators -/

theorem yields_addDerivation {declarator : Declarator} (sorted : declarator.WellSorted context.tokens) :
    Yields context (addDerivation deeper declarator)
      (Stepped (Declarator.WellSorted context.tokens) (Declarator.WellSorted context.tokens)) := by
  have more : ∀ derivation : TypeDerivation, derivation.WellSorted context.tokens →
      (declarator.append [derivation]).WellSorted context.tokens :=
    fun derivation found => sorted.append (List.forall_mem_cons.mpr ⟨found, nofun⟩)
  refine yields_then fun token => yields_then fun _ => yields_ite (fun _ => ?_) fun _ => ?_
  · refine yields_bind (yields_arrayDerivation inside) fun derivation found => ?_
    exact yields_pure ⟨more derivation found, more derivation found⟩
  · refine yields_ite (fun _ => ?_) fun _ => yields_pure sorted
    refine yields_bind (yields_functionDerivation inside) fun derivation found => ?_
    exact yields_pure ⟨more derivation found, more derivation found⟩

theorem yields_declaratorCore {form : DeclaratorForm} :
    Yields context (declaratorCore deeper form) (·.WellSorted context.tokens) := by
  refine yields_then fun _ => yields_ite (fun _ => ?_) fun _ => ?_
  · refine yields_then fun _ => yields_then fun _ => yields_bind (inside.declarator form) ?_
    exact fun _ sorted => yields_then fun _ => yields_pure sorted
  · refine yields_bind yields_peekToken fun token inText => yields_ite (fun _ => ?_) fun _ => ?_
    · have named : ∀ name ∈ some token.lexeme, context.tokens.HasName name := by
        simpa using TokenStream.hasName_of_mem inText
      exact yields_then fun _ => yields_pure ⟨TokenStream.hasPlace_of_mem inText, named, .nil⟩
    · refine yields_ite (fun _ => yields_unexpected) fun _ => yields_pure ?_
      exact ⟨TokenStream.hasPlace_of_mem inText, nofun, .nil⟩

theorem yields_directDeclarator {form : DeclaratorForm} :
    Yields context (directDeclarator deeper form) (·.WellSorted context.tokens) :=
  yields_bind (yields_declaratorCore inside) fun _ sorted =>
    yields_iterateKeeping sorted fun _ => yields_addDerivation inside

theorem yields_declaratorRule {form : DeclaratorForm} :
    Yields context (declaratorRule deeper form) (·.WellSorted context.tokens) :=
  yields_bind yields_pointers fun _ pointers =>
    yields_bind (yields_directDeclarator inside) fun _ sorted => yields_pure (sorted.append pointers)

end

section

open Parse Productions
open NodeKind (isType isExpression isStatement isDeclared isBlockDeclaration isGroupedDeclaration
  isBlockItem isExternal)

variable {tokens : TokenStream} {context : ParseContext} {deeper : Productions}
  {specifiers : DeclarationSpecifiers} {base : Node}

/-! ## Groups -/

theorem is_groupDeclarations {place : SourceLocation} {nodes : Array Node}
    (placed : tokens.HasPlace place) (all : AllAre tokens isBlockDeclaration nodes) :
    (groupDeclarations place nodes).Is tokens isGroupedDeclaration := by
  obtain ⟨nodes⟩ := nodes
  have group : nodes.length ≠ 1 →
      (Node.ofChildren .declarationGroup place nodes).Is tokens isGroupedDeclaration := by
    intro notOne
    have fill : Node.Fill tokens [.many isBlockDeclaration] nodes := .lastMany all
    exact ⟨.intro ⟨fill.filled, rfl, fun _ => notOne⟩ placed nofun fill.wellFormed, rfl⟩
  match nodes with
  | [] => exact group (by simp)
  | [node] =>
    refine (all node List.mem_cons_self).mono fun kind block => ?_
    simp [isGroupedDeclaration, block]
  | _ :: _ :: _ => exact group (by simp)

/-! ## Tags -/

/-- A tag declaration has the members of its type. -/
theorem is_tagDeclaration (is : base.Is tokens isType) :
    ∀ node ∈ tagDeclaration? base, node.Is tokens isDeclared := by
  intro node found
  unfold tagDeclaration? at found
  dsimp only at found
  split at found
  · cases found
  · rename_i type isInner
    -- Below the qualifiers or not, the type is a part of a tree that is well-formed.
    have wellFormed : type.WellFormed tokens := by
      split at isInner
      · exact is.wellFormed.child type (List.mem_of_getElem? isInner)
      · cases isInner
        exact is.wellFormed
    have form := wellFormed.conforms.payload
    have named := wellFormed.named
    obtain ⟨kind, place, payload, children⟩ := type
    split at found
    · rename_i isStruct
      cases isStruct
      cases found
      exact wellFormed.relabeled rfl form nofun rfl fun _ => named nofun
    · rename_i isUnion
      cases isUnion
      cases found
      exact wellFormed.relabeled rfl form nofun rfl fun _ => named nofun
    · rename_i isEnum
      cases isEnum
      cases found
      exact wellFormed.relabeled rfl form nofun rfl fun _ => named nofun
    · cases found

/-! ## Functions -/

/-- A function declaration as far as its body: the returned type and the parameters. -/
structure IsHeading (tokens : TokenStream) (node : Node) : Prop where
  kind : node.kind = .functionDeclaration
  placed : tokens.HasPlace node.location
  payload : node.payload.form = .function
  named : ∀ name ∈ node.payload.name?, tokens.HasName name
  children : ∃ type parameters, node.children = type :: parameters ∧ type.Is tokens isType ∧
    ∀ parameter ∈ parameters, parameter.Is tokens (· == .parameterDeclaration)

namespace IsHeading

variable {declaration : Node} (heading : IsHeading tokens declaration)

include heading

theorem is_append {body : Option Node} (isBlock : ∀ block ∈ body, block.Is tokens (· == .compound)) :
    ({ declaration with children := declaration.children ++ body.toList } : Node).Is tokens
      isDeclared := by
  obtain ⟨type, parameters, same, isType, areParameters⟩ := heading.children
  obtain ⟨kind, place, payload, children⟩ := declaration
  obtain rfl : kind = .functionDeclaration := heading.kind
  obtain rfl : children = type :: parameters := same
  have fill := Node.Fill.one isType (.many areParameters (.lastOptional isBlock))
  exact fill.namedNode heading.placed heading.payload nofun rfl fun _ => heading.named

theorem is_declared : declaration.Is tokens isDeclared := by
  have noBody : ∀ block ∈ (none : Option Node), block.Is tokens (· == .compound) := by simp
  have whole := heading.is_append noBody
  obtain ⟨kind, place, payload, children⟩ := declaration
  simpa using whole

end IsHeading

theorem isHeading_functionDeclaration {declarator : Declarator} {symbol : Option String}
    (is : base.Is tokens isType) (sorted : declarator.WellSorted tokens) :
    IsHeading tokens (functionDeclaration specifiers base declarator symbol) := by
  have derivations := sorted.derivations
  have named : ∀ name ∈ some (declarator.name.getD ""), tokens.HasName name := by
    intro name isName
    obtain rfl := Option.some.inj isName
    cases isNamed : declarator.name with
    | none => exact TokenStream.hasName_empty
    | some text => exact sorted.named text isNamed
  unfold functionDeclaration
  split
  · rename_i place parameters isVariadic isPrototyped rest same
    rw [same] at derivations
    obtain ⟨outermost, inner⟩ := List.forall_mem_cons.mp derivations
    cases outermost with
    | function _ declared =>
      have returned : ({ declarator with derivations := rest } : Declarator).WellSorted tokens :=
        ⟨sorted.placed, sorted.named, inner⟩
      exact ⟨rfl, sorted.placed, rfl, named, _, parameters, rfl, returned.is_type is, declared⟩
  · exact ⟨rfl, sorted.placed, rfl, named, _, [], rfl, sorted.is_type is, by simp⟩

theorem yields_functionDefinition {declaration : Node} {body : Parse Node}
    (heading : IsHeading context.tokens declaration)
    (isBlock : Yields context body (·.Is context.tokens (· == .compound))) :
    Yields context (functionDefinition declaration body) (·.Is context.tokens isDeclared) := by
  refine yields_then fun _ => yields_bind (yields_inNewScope (yields_then fun _ => isBlock)) ?_
  intro block is
  have isBody : ∀ node ∈ some block, node.Is context.tokens (· == .compound) := by simpa using is
  exact yields_pure (heading.is_append isBody)

variable (inside : deeper.WellSorted context)

include inside

/-! ## Assembly -/

theorem yields_assemblyOperand :
    Yields context (assemblyOperand deeper) (·.Is context.tokens isExpression) := by
  have operand : Yields context (do
      discard stringLiteral
      discard (expectPunctuator .openParen "'(' before asm operand")
      let operand ← deeper.expression
      expectClosingParen
      return operand) (·.Is context.tokens isExpression) :=
    yields_then fun _ => yields_then fun _ => yields_bind (yields_expression inside) fun _ is =>
      yields_then fun _ => yields_pure is
  refine yields_then fun _ => yields_ite (fun _ => yields_then fun _ => yields_then fun _ => ?_)
    fun _ => operand
  exact operand

theorem yields_assemblyItem {list : Nat} :
    Yields context (assemblyItem deeper list) fun nodes =>
      ∀ node ∈ nodes, node.Is context.tokens isExpression := by
  have kept : Yields context (do return [← assemblyOperand deeper]) fun nodes =>
      ∀ node ∈ nodes, node.Is context.tokens isExpression :=
    yields_bind (yields_assemblyOperand inside) fun _ is => yields_pure (by simpa using is)
  unfold assemblyItem
  split
  · exact kept
  · exact kept
  · exact yields_then fun _ => yields_pure (by simp)
  · exact yields_then fun _ => yields_pure (by simp)

theorem yields_assemblyItems {list : Nat} :
    Yields context (assemblyItems deeper list) (AllAre context.tokens isExpression) := by
  refine yields_iterateKeeping AllAre.empty fun operands all => ?_
  refine yields_bind (yields_assemblyItem inside) fun nodes are => yields_then fun _ => ?_
  have more := all.appendList are
  exact yields_ite (fun _ => yields_pure ⟨more, more⟩) fun _ => yields_pure more

theorem yields_assemblyLists :
    Yields context (assemblyLists deeper) (AllAre context.tokens isExpression) := by
  let keeps : Nat × Array Node → Prop := fun found => AllAre context.tokens isExpression found.2
  have none : keeps (0, #[]) := AllAre.empty
  refine yields_bind (yields_iterateKeeping none ?_) fun _ all => yields_pure all
  rintro ⟨list, operands⟩ all
  refine yields_then fun _ => yields_ite (fun _ => yields_pure all) fun _ => ?_
  refine yields_then fun _ => yields_ite (fun _ => yields_pure ⟨all, all⟩) fun _ => ?_
  refine yields_bind (yields_assemblyItems inside) fun items are => yields_pure ?_
  have more := all.append are
  exact ⟨more, more⟩

theorem yields_assembly :
    Yields context (assembly deeper) (·.Is context.tokens (· == .assembly)) := by
  refine yields_bind yields_location fun _ placed => yields_then fun _ => yields_then fun _ => ?_
  refine yields_then fun _ => yields_then fun _ => ?_
  refine yields_bind (yields_assemblyLists inside) fun _ operands => yields_then fun _ => ?_
  refine yields_then fun _ => yields_pure ?_
  exact (Node.Fill.lastMany operands).namedNode placed rfl nofun rfl fun other => absurd rfl other

/-! ## Declarators with what they declare -/

theorem yields_variableDeclaration {declarator : Declarator} {symbol : Option String}
    (specified : specifiers.WellSorted context.tokens) (is : base.Is context.tokens isType)
    (sorted : declarator.WellSorted context.tokens) :
    Yields context (variableDeclaration deeper specifiers base declarator symbol)
      (·.Is context.tokens isDeclared) := by
  refine yields_then fun _ => yields_then fun _ => ?_
  refine yields_optional (yields_initializer inside) fun value initial => yields_pure ?_
  have fill := Node.Fill.one (sorted.is_type is) (.many specified.alignments (.lastOptional initial))
  exact fill.namedNode sorted.placed rfl nofun rfl fun _ => sorted.named

variable {body : Option (Parse Node)}
  (isBlock : ∀ block ∈ body, Yields context block (·.Is context.tokens (· == .compound)))

include isBlock

theorem yields_initDeclarator (specified : specifiers.WellSorted context.tokens)
    (is : base.Is context.tokens isType) :
    Yields context (initDeclarator deeper body specifiers base) (·.Is context.tokens isDeclared) := by
  refine yields_bind (inside.declarator .named) fun declarator sorted => ?_
  refine yields_then fun symbol => yields_then fun _ => yields_ite (fun _ => yields_pure ?_) fun _ => ?_
  · exact (Node.Fill.one (sorted.is_type is) .nil).namedNode sorted.placed rfl nofun rfl
      fun _ => sorted.named
  · refine yields_ite (fun _ => ?_) fun _ => yields_variableDeclaration inside specified is sorted
    have heading : IsHeading context.tokens
        (functionDeclaration specifiers base declarator symbol) :=
      isHeading_functionDeclaration is sorted
    refine yields_then fun _ => yields_ite (fun _ => ?_) fun _ => ?_
    · split
      · exact yields_functionDefinition heading (isBlock _ rfl)
      · exact yields_then fun _ => yields_giveUp
    · exact yields_then fun _ => yields_pure heading.is_declared

theorem yields_initDeclarators (specified : specifiers.WellSorted context.tokens)
    (is : base.Is context.tokens isType) :
    Yields context (initDeclarators deeper body specifiers base)
      (Items.Are context.tokens isDeclared) := by
  refine yields_iterateKeeping AllAre.empty fun items all => ?_
  have declares : Yields context (initDeclarator deeper
      (if items.nodes.isEmpty = true then body else none) specifiers base)
      (·.Is context.tokens isDeclared) := by
    refine yields_initDeclarator inside (fun block member => ?_) specified is
    split at member
    · exact isBlock block member
    · cases member
  refine yields_bind (yields_attempt declares) fun found are => ?_
  cases found with
  | none => exact yields_pure all
  | some node =>
    have more := AllAre.push all (are node rfl)
    refine yields_ite (fun _ => yields_pure more) fun _ => yields_then fun _ => ?_
    exact yields_ite (fun _ => yields_pure ⟨more, more⟩) fun _ => yields_pure more

/-! ## Declarations -/

omit inside isBlock in
theorem yields_withoutSpecifiers {atTop : Bool} (sorted : specifiers.WellSorted context.tokens) :
    Yields context (withoutSpecifiers atTop specifiers) (·.WellSorted context.tokens) := by
  refine yields_bind yields_peek fun token placed => yields_then fun _ => yields_ite (fun _ => ?_)
    fun _ => ?_
  · exact yields_pure ⟨placed, sorted.alignments, sorted.named⟩
  · exact yields_ite (fun _ => yields_giveUp) fun _ => yields_unexpected

theorem yields_declaration :
    Yields context (declaration deeper body) (Items.Are context.tokens isDeclared) := by
  refine yields_bind (inside.specifiers true) fun specifiers sorted => ?_
  refine yields_either (fun _ => yields_pure sorted) (fun _ => yields_withoutSpecifiers sorted)
    fun specifiers specified => ?_
  refine yields_bind (yields_baseType specified) fun base is => yields_then fun _ => ?_
  refine yields_ite (fun _ => yields_pure ?_) fun _ => ?_
  · have tagged := is_tagDeclaration is
    cases tag : tagDeclaration? base with
    | none => exact AllAre.empty
    | some node => exact AllAre.singleton (tagged node tag)
  · refine yields_bind (yields_initDeclarators inside isBlock specified is) fun items all => ?_
    refine yields_then fun _ => yields_ite (fun _ => yields_pure all) fun _ => ?_
    exact yields_thenFinish all

omit isBlock

omit inside in
theorem yields_labelDeclarations :
    Yields context labelDeclarations (Items.Are context.tokens (· == .labelDeclaration)) := by
  refine yields_then fun _ => yields_bind (yields_separatedItems ?_)
    fun _ all => yields_thenFinish all.1
  exact yields_bind yields_expectToken fun _ inText =>
    yields_pure (Node.Fill.nil.written inText (TokenStream.hasPlace_of_mem inText) rfl nofun rfl)

theorem yields_blockDeclaration :
    Yields context (blockDeclaration deeper) (Items.Are context.tokens isBlockDeclaration) := by
  refine yields_then fun _ => yields_then fun token => ?_
  split
  · refine (yields_single (yields_staticAssertion inside)).mono fun _ all => all.mono ?_
    simp [isBlockDeclaration, isDeclared]
  · refine yields_labelDeclarations.mono fun _ all => all.mono ?_
    simp [isBlockDeclaration]
  · refine (yields_declaration inside (by simp)).mono fun _ all => all.mono ?_
    simp +contextual [isBlockDeclaration]

theorem yields_groupedDeclaration :
    Yields context (groupedDeclaration deeper) (·.Is context.tokens isGroupedDeclaration) :=
  yields_bind yields_location fun _ placed =>
    yields_bind (yields_completed (yields_blockDeclaration inside)) fun _ all =>
      yields_pure (is_groupDeclarations placed all)

/-! ## Blocks -/

theorem yields_blockItem :
    Yields context (blockItem deeper) (Items.Are context.tokens isBlockItem) := by
  refine yields_then fun _ => yields_ite (fun _ => ?_) fun _ => ?_
  · refine (yields_blockDeclaration inside).mono fun _ all => all.mono ?_
    simp +contextual [isBlockItem]
  · refine (yields_single inside.statement).mono fun _ all => all.mono ?_
    simp +contextual [isBlockItem]

theorem yields_blockIn {inScope : Parse (Array Node) → Parse (Array Node)}
    (keeps : ∀ production : Parse (Array Node),
      Yields context production (AllAre context.tokens isBlockItem) →
      Yields context (inScope production) (AllAre context.tokens isBlockItem)) :
    Yields context (blockIn inScope deeper) (·.Is context.tokens (· == .compound)) := by
  refine yields_bind yields_expect fun _ placed => ?_
  refine yields_bind (keeps _ (yields_recoveringItems (yields_blockItem inside))) fun _ all => ?_
  exact yields_then fun _ => yields_pure ((Node.Fill.lastMany all).node placed rfl nofun rfl rfl)

theorem yields_functionBody :
    Yields context (functionBody deeper) (·.Is context.tokens (· == .compound)) :=
  yields_blockIn inside fun _ yields => yields

theorem yields_block : Yields context (block deeper) (·.Is context.tokens (· == .compound)) :=
  yields_blockIn inside fun _ => yields_inNewScope

/-! ## The top of a text -/

theorem yields_externalDeclaration :
    Yields context (externalDeclaration deeper) fun items =>
      items.Are context.tokens isDeclared ∨
        ∃ node, items.nodes = #[node] ∧ node.Is context.tokens (· == .assembly) := by
  refine yields_then fun _ => yields_then fun token => ?_
  split
  · exact yields_then fun _ => yields_pure (.inl AllAre.empty)
  · refine (yields_single (yields_staticAssertion inside)).mono fun _ all => .inl (all.mono ?_)
    simp [isDeclared]
  · exact yields_bind (yields_assembly inside) fun node is => yields_pure (.inr ⟨node, rfl, is⟩)
  · refine (yields_declaration inside ?_).mono fun _ all => .inl all
    rintro _ ⟨⟩
    exact yields_functionBody inside

end

end CFrontEnd
