import CFrontEnd.Grammar.Rules.Declarations
import CFrontEnd.Proofs.Likeness.Declarators

/-!
Declarations and blocks of texts that are alike. The same names come into scope on both sides.
-/

namespace CFrontEnd

open Parse Productions

variable {twins : Twins} {deeper : Productions}

/-! ## What is declared -/

section Declared

variable {like : Likeness} {base otherBase : Node} {specifiers otherSpecifiers : DeclarationSpecifiers}
  {declarator otherDeclarator : Declarator}

theorem Node.Alike.relabel {node other : Node} (kind : NodeKind) (alike : node.Alike like other) :
    Node.Alike like { node with kind := kind } { other with kind := kind } := by
  obtain ⟨placed, payloads, below⟩ := alike
  exact .intro placed payloads below

theorem alike_tagDeclaration? (based : base.Alike like otherBase) :
    Option.Rel (Node.Alike like) (tagDeclaration? base) (tagDeclaration? otherBase) := by
  -- The tag stands below the qualifiers where there are any.
  have inner : Option.Rel (Node.Alike like)
      (if base.kind = .qualifiedType then base.child? 0 else some base)
      (if otherBase.kind = .qualifiedType then otherBase.child? 0 else some otherBase) := by
    rw [based.kind]
    split
    · rw [Node.child?, Node.child?]
      have below := based.children
      generalize base.children = nodes at below ⊢
      generalize otherBase.children = others at below ⊢
      cases below with
      | nil => exact .none
      | cons first _ => exact .some first
    · exact .some based
  unfold tagDeclaration?
  dsimp only
  generalize (if base.kind = .qualifiedType then base.child? 0 else some base) = found at inner ⊢
  generalize (if otherBase.kind = .qualifiedType then otherBase.child? 0 else some otherBase) =
    otherFound at inner ⊢
  cases inner with
  | none => exact .none
  | some type =>
    dsimp only
    rw [type.kind]
    split
    · exact .some (type.relabel _)
    · exact .some (type.relabel _)
    · exact .some (type.relabel _)
    · exact .none

theorem alike_functionDeclaration (symbol : Option String) (specified : specifiers.Alike like otherSpecifiers)
    (based : base.Alike like otherBase) (declared : declarator.Alike like otherDeclarator) :
    (functionDeclaration specifiers base declarator symbol).Alike like
      (functionDeclaration otherSpecifiers otherBase otherDeclarator symbol) := by
  obtain ⟨_, _, _⟩ := specified
  have type := declared.type based
  obtain ⟨placed, derived⟩ := declared
  unfold functionDeclaration
  cases derived with
  | nil => exact .intro placed (.same nofun) (Nodes.Alike.single based)
  | cons outermost rest =>
    cases outermost with
    | function isVariadic isPrototyped _ declaredParameters =>
      refine .intro placed (.same nofun) (.cons ?_ declaredParameters)
      exact Declarator.Alike.type (.intro placed rest) based
    | _ => exact .intro placed (.same nofun) (Nodes.Alike.single type)

end Declared

/-- The last of the declarations is a function with a body on both sides or on none. -/
theorem Nodes.Alike.endsInBody {like : Likeness} {nodes others : Array Node}
    (alike : Nodes.Alike like nodes others) :
    (others.back?.bind Node.body?).isSome = (nodes.back?.bind Node.body?).isSome := by
  have last := Nodes.Alike.getLast? alike
  rw [Array.getLast?_toList, Array.getLast?_toList] at last
  generalize nodes.back? = final at last ⊢
  generalize others.back? = otherFinal at last ⊢
  cases last with
  | none => rfl
  | some node => exact node.isSome_body?

/-! ## Functions -/

theorem agree_functionDefinition {body : Parse Node} {declaration other : Node}
    (alike : declaration.Alike twins.like other) (reads : ReadsAlike twins body) :
    Agree twins (Node.Alike twins.like) (functionDefinition declaration body)
      (functionDefinition other body) := by
  have declaredParameters := alike.parameters
  have sameName := alike.name?
  unfold functionDefinition
  rw [sameName]
  refine agree_then agree_addOrdinary fun _ => agree_bind
    (show Agree twins (Node.Alike twins.like) _ _ from agree_inNewScope ?_) fun _ _ block => ?_
  · refine agree_then (agree_forIn declaredParameters fun parameter other pair => ?_) fun _ => reads
    rw [pair.name?]
    split
    · exact agree_then agree_addOrdinary fun _ => agree_pure rfl
    · exact agree_pure rfl
  · obtain ⟨placed, payloads, below⟩ := alike
    exact agree_pure (.intro placed payloads (Nodes.Alike.append below (Nodes.Alike.single block)))

/-! ## Assembly -/

theorem agree_skipAssemblyWords : Agree twins Eq skipAssemblyWords skipAssemblyWords := by
  refine agree_iterateSame fun _ => agree_bind agree_peek ?_
  rintro _ _ ⟨_, _⟩
  dsimp only
  split
  · exact agree_then agree_discard_advance fun _ => agree_pure rfl
  · exact agree_then agree_discard_advance fun _ => agree_pure rfl
  · exact agree_then agree_discard_advance fun _ => agree_pure rfl
  · exact agree_pure rfl

theorem agree_assemblerName? : Agree twins Eq assemblerName? assemblerName? := by
  refine agree_then agree_consume fun _ => agree_ite ?_ (agree_pure rfl)
  exact agree_then (agree_expectPunctuator (by decide)) fun _ => agree_then agree_stringText fun _ =>
    agree_then agree_expectClosingParen fun _ => agree_pure rfl

theorem agree_discard_stringLiteral :
    Agree twins Eq (discard stringLiteral) (discard stringLiteral) :=
  agree_discard agree_stringLiteral

theorem agree_discard_expectIdentifier :
    Agree twins Eq (discard expectIdentifier) (discard expectIdentifier) :=
  agree_discard agree_expectIdentifier

section Assembly

variable (inside : deeper.AgreeOn twins)

include inside

theorem agree_assemblyOperand : ReadsAlike twins (assemblyOperand deeper) := by
  have operand : ReadsAlike twins (do
      discard stringLiteral
      discard (expectPunctuator .openParen "'(' before asm operand")
      let operand ← deeper.expression
      expectClosingParen
      return operand) :=
    agree_then agree_discard_stringLiteral fun _ => agree_then (agree_expectPunctuator (by decide)) fun _ =>
      agree_bind (agree_expression inside) fun _ _ node =>
        agree_then agree_expectClosingParen fun _ => agree_pure node
  refine agree_then agree_consumePunctuator fun _ => agree_ite ?_ operand
  exact agree_then agree_discard_expectIdentifier fun _ =>
    agree_then (agree_expectPunctuator (by decide)) fun _ => operand

theorem agree_assemblyItem {list : Nat} :
    Agree twins (List.Forall₂ (Node.Alike twins.like)) (assemblyItem deeper list)
      (assemblyItem deeper list) := by
  have kept : Agree twins (List.Forall₂ (Node.Alike twins.like))
      (do return [← assemblyOperand deeper]) (do return [← assemblyOperand deeper]) :=
    agree_bind (agree_assemblyOperand inside) fun _ _ node => agree_pure (Nodes.Alike.single node)
  unfold assemblyItem
  split
  · exact kept
  · exact kept
  · exact agree_then agree_discard_stringLiteral fun _ => agree_pure .nil
  · exact agree_then agree_discard_expectIdentifier fun _ => agree_pure .nil

theorem agree_assemblyItems {list : Nat} :
    Agree twins (Nodes.Alike twins.like) (assemblyItems deeper list) (assemblyItems deeper list) := by
  refine agree_iterate .nil fun operands others alike => ?_
  refine agree_bind (agree_assemblyItem inside) fun nodes otherNodes added => ?_
  have more : Nodes.Alike twins.like (operands ++ nodes) (others ++ otherNodes) := by
    rw [Nodes.Alike, Array.toList_appendList, Array.toList_appendList]
    exact Nodes.Alike.append alike added
  exact agree_then agree_consumePunctuator fun _ =>
    agree_ite (agree_pure (.yield more)) (agree_pure (.done more))

theorem agree_assemblyLists :
    Agree twins (Nodes.Alike twins.like) (assemblyLists deeper) (assemblyLists deeper) := by
  let related : Nat × Array Node → Nat × Array Node → Prop := fun found other =>
    found.1 = other.1 ∧ Nodes.Alike twins.like found.2 other.2
  have none : related (0, #[]) (0, #[]) := ⟨rfl, .nil⟩
  refine agree_bind (agree_iterate none ?_) fun _ _ found => agree_pure found.2
  rintro ⟨list, operands⟩ ⟨_, others⟩ ⟨rfl, alike⟩
  refine agree_then agree_consumePunctuator fun _ => agree_ite ?_ ?_
  · exact agree_pure (.done ⟨rfl, alike⟩)
  · refine agree_bind agree_peek ?_
    rintro _ _ ⟨_, _⟩
    refine agree_ite (agree_pure (.yield ⟨rfl, alike⟩)) ?_
    exact agree_bind (agree_assemblyItems inside) fun _ _ items =>
      agree_pure (.yield ⟨rfl, Nodes.Alike.join alike items⟩)

theorem agree_assembly : ReadsAlike twins (assembly deeper) := by
  refine agree_bind agree_location fun _ _ placed => agree_then agree_discard_advance fun _ => ?_
  refine agree_then agree_skipAssemblyWords fun _ => ?_
  refine agree_then (agree_expectPunctuator (by decide)) fun _ => ?_
  refine agree_then agree_stringText fun _ => ?_
  refine agree_bind (agree_assemblyLists inside) fun _ _ operands => ?_
  refine agree_then (agree_expectPunctuator (by decide)) fun _ => ?_
  refine agree_then (agree_expectSemicolon (by decide)) fun _ => ?_
  exact agree_pure (.intro placed (.same nofun) operands)

end Assembly

/-! ## Declarators with what they declare -/

section Declarations

variable {specifiers otherSpecifiers : DeclarationSpecifiers} {base otherBase : Node}
  {declarator otherDeclarator : Declarator} {body : Option (Parse Node)}
  (inside : deeper.AgreeOn twins) (specified : specifiers.Alike twins.like otherSpecifiers)
  (based : base.Alike twins.like otherBase)

include inside specified based

theorem agree_variableDeclaration (symbol : Option String)
    (declared : declarator.Alike twins.like otherDeclarator) :
    Agree twins (Node.Alike twins.like)
      (variableDeclaration deeper specifiers base declarator symbol)
      (variableDeclaration deeper otherSpecifiers otherBase otherDeclarator symbol) := by
  have type := declared.type based
  obtain ⟨placed, _⟩ := declared
  obtain ⟨_, aligned, _⟩ := specified
  refine agree_then agree_addOrdinary fun _ => agree_then agree_consume fun _ => ?_
  refine agree_optional (agree_initializer inside) fun _ _ initial => agree_pure ?_
  exact .intro placed (.same nofun)
    (.cons type (Nodes.Alike.append aligned (Nodes.Alike.optional initial)))

variable (reads : ∀ block ∈ body, ReadsAlike twins block)

include reads

theorem agree_initDeclarator :
    Agree twins (Node.Alike twins.like) (initDeclarator deeper body specifiers base)
      (initDeclarator deeper body otherSpecifiers otherBase) := by
  refine agree_bind (inside.declarator .named) fun declarator otherDeclarator declared => ?_
  refine agree_then agree_assemblerName? fun symbol => agree_then agree_skipAttributes fun _ => ?_
  have declaration := alike_functionDeclaration symbol specified based declared
  have declares := agree_variableDeclaration inside specified based symbol declared
  have type := declared.type based
  have isTypedef : otherSpecifiers.isTypedef = specifiers.isTypedef := by
    cases specified
    rfl
  rw [isTypedef, declared.isFunction, declared.name]
  refine agree_ite (agree_pure ?_) (agree_ite ?_ declares)
  · exact .intro declared.placed (.same nofun) (Nodes.Alike.single type)
  · refine agree_then agree_atPunctuator fun _ => agree_ite ?_ ?_
    · cases body with
      | some block => exact agree_functionDefinition declaration (reads block rfl)
      | none => exact agree_bind agree_location fun _ _ placed => agree_giveUp placed rfl nofun
    · exact agree_then agree_addOrdinary fun _ => agree_pure declaration

theorem agree_initDeclarators :
    Agree twins (Items.Alike twins.like) (initDeclarators deeper body specifiers base)
      (initDeclarators deeper body otherSpecifiers otherBase) := by
  refine agree_iterate (.intro .nil) ?_
  rintro _ _ ⟨alike⟩
  rename_i nodes others _
  have empty := Nodes.Alike.isEmpty alike
  have declares : Agree twins (Node.Alike twins.like)
      (initDeclarator deeper (if nodes.isEmpty = true then body else none) specifiers base)
      (initDeclarator deeper (if others.isEmpty = true then body else none) otherSpecifiers
        otherBase) := by
    rw [empty]
    refine agree_initDeclarator inside specified based fun block member => ?_
    split at member
    · exact reads block member
    · cases member
  refine agree_bind (agree_attempt declares) fun found otherFound founds => ?_
  cases founds with
  | none => exact agree_pure (.done (.intro alike))
  | some node =>
    have more := Nodes.Alike.push alike node
    dsimp only
    rw [node.isSome_body?]
    refine agree_ite (agree_pure (.done (.intro more))) (agree_then agree_consumePunctuator fun _ => ?_)
    exact agree_ite (agree_pure (.yield (.intro more))) (agree_pure (.done (.intro more)))

end Declarations

/-! ## Declarations -/

theorem agree_withoutSpecifiers {atTop : Bool} {specifiers other : DeclarationSpecifiers}
    (alike : specifiers.Alike twins.like other) :
    Agree twins (DeclarationSpecifiers.Alike twins.like) (withoutSpecifiers atTop specifiers)
      (withoutSpecifiers atTop other) := by
  obtain ⟨_, aligned, types⟩ := alike
  refine agree_bind agree_peek ?_
  rintro _ _ ⟨placed, _, written⟩
  refine agree_bind agree_peekAhead ?_
  rintro _ _ ⟨_, _⟩
  have quoted := List.forall_mem_singleton.mpr written
  have expected :
      twins.like.Writes (if atTop then "declaration" else "declaration or statement") := by
    cases atTop <;> exact Likeness.writes_words (by decide)
  refine agree_ite (agree_pure ?_)
    (agree_ite (agree_giveUp placed rfl quoted) (agree_unexpectedText expected))
  exact .of { specifiers with location := _ } placed aligned types

theorem agree_addTypedefs {nodes others : Array Node} (alike : Nodes.Alike twins.like nodes others) :
    Agree twins Eq (addTypedefs nodes) (addTypedefs others) := by
  refine agree_modifyScopes fun scopes => ?_
  rw [← Array.foldl_toList, ← Array.foldl_toList]
  unfold Nodes.Alike at alike
  generalize nodes.toList = list at alike ⊢
  generalize others.toList = otherList at alike ⊢
  induction alike generalizing scopes with
  | nil => rfl
  | cons first _ ih =>
    rw [List.foldl_cons, List.foldl_cons, first.kind, first.name?]
    exact ih _

variable (inside : deeper.AgreeOn twins)

include inside

theorem agree_declaration {body : Option (Parse Node)}
    (reads : ∀ block ∈ body, ReadsAlike twins block) :
    Agree twins (Items.Alike twins.like) (declaration deeper body) (declaration deeper body) := by
  refine agree_bind (inside.specifiers true) fun specifiers other alike => ?_
  rw [alike.isPresent]
  refine agree_either (agree_pure alike) (agree_withoutSpecifiers alike)
    fun specifiers otherSpecifiers specified => ?_
  refine agree_bind (agree_baseType specified) fun base otherBase based => ?_
  refine agree_then agree_consumePunctuator fun _ => agree_ite (agree_pure ?_) ?_
  · have tagged := alike_tagDeclaration? based
    generalize tagDeclaration? base = tag at tagged ⊢
    generalize tagDeclaration? otherBase = otherTag at tagged ⊢
    cases tagged with
    | none => exact .intro .nil
    | some node => exact .intro (Nodes.Alike.single node)
  · refine agree_bind (agree_initDeclarators inside specified based reads) ?_
    rintro _ _ ⟨alike⟩
    rename_i nodes others _
    refine agree_then (agree_addTypedefs alike) fun _ => ?_
    rw [Nodes.Alike.endsInBody alike]
    exact agree_ite (agree_pure (.intro alike))
      (agree_thenFinish (.intro alike) (agree_expectSemicolon (by decide)))

omit inside in
theorem agree_labelDeclarations :
    Agree twins (Items.Alike twins.like) labelDeclarations labelDeclarations := by
  refine agree_then agree_discard_advance fun _ => agree_bind (agree_separatedItems ?_) ?_
  · refine agree_bind agree_expectIdentifier ?_
    rintro _ _ ⟨placed, _⟩
    exact agree_pure (.named placed)
  · exact fun _ _ labels => agree_thenFinish labels (agree_expectSemicolon (by decide))

theorem agree_blockDeclaration :
    Agree twins (Items.Alike twins.like) (blockDeclaration deeper) (blockDeclaration deeper) := by
  refine agree_then agree_skipExtensions fun _ => agree_bind agree_peek ?_
  rintro _ _ ⟨_, _⟩
  dsimp only
  split
  · exact agree_single (agree_staticAssertion inside)
  · exact agree_labelDeclarations
  · exact agree_declaration inside nofun

theorem agree_groupedDeclaration : ReadsAlike twins (groupedDeclaration deeper) :=
  agree_bind agree_location fun _ _ placed =>
    agree_bind (agree_completed (agree_blockDeclaration inside)) fun _ _ nodes =>
      agree_pure (alike_groupDeclarations placed nodes)

/-! ## Blocks -/

theorem agree_blockItem :
    Agree twins (Items.Alike twins.like) (blockItem deeper) (blockItem deeper) :=
  agree_then agree_startsDeclaration fun _ =>
    agree_ite (agree_blockDeclaration inside) (agree_single inside.statement)

theorem agree_blockIn {inScope : Parse (Array Node) → Parse (Array Node)}
    (keeps : ∀ production, Agree twins (Nodes.Alike twins.like) production production →
      Agree twins (Nodes.Alike twins.like) (inScope production) (inScope production)) :
    ReadsAlike twins (blockIn inScope deeper) := by
  refine agree_bind (agree_expect (by decide)) ?_
  rintro _ _ ⟨placed, _⟩
  refine agree_bind (keeps _ (agree_recoveringItems (· == .punctuator .closeBrace)
    (agree_blockItem inside))) fun _ _ nodes => ?_
  exact agree_then agree_expectClosingBrace fun _ => agree_pure (.ofChildren placed nodes)

theorem agree_functionBody : ReadsAlike twins (functionBody deeper) :=
  agree_blockIn inside fun _ agree => agree

theorem agree_block : ReadsAlike twins (block deeper) :=
  agree_blockIn inside fun _ => agree_inNewScope

/-! ## The top of a text -/

theorem agree_externalDeclaration :
    Agree twins (Items.Alike twins.like) (externalDeclaration deeper)
      (externalDeclaration deeper) := by
  refine agree_then agree_skipExtensions fun _ => agree_bind agree_peek ?_
  rintro _ _ ⟨_, _⟩
  dsimp only
  split
  · exact agree_then agree_discard_advance fun _ => agree_pure (.intro .nil)
  · exact agree_single (agree_staticAssertion inside)
  · exact agree_single (agree_assembly inside)
  · refine agree_declaration inside ?_
    rintro _ ⟨⟩
    exact agree_functionBody inside

end CFrontEnd
