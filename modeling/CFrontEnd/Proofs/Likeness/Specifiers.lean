import CFrontEnd.Grammar.Rules.Specifiers
import CFrontEnd.Proofs.Likeness.Recovery

/-!
Specifiers of texts that are alike, with the types that are written out among them.
-/

namespace CFrontEnd

open Parse Productions

variable {twins : Twins} {deeper : Productions}

/-- The production reads nodes that are alike. -/
abbrev ReadsAlike (twins : Twins) (production : Parse Node) : Prop :=
  Agree twins (Node.Alike twins.like) production production

/-- The productions of a level do the same on both texts. -/
structure Productions.AgreeOn (level : Productions) (twins : Twins) : Prop where
  assignment : ReadsAlike twins level.assignment
  conditional : ReadsAlike twins level.conditional
  cast : ReadsAlike twins level.cast
  unary : ReadsAlike twins level.unary
  initializerList : ReadsAlike twins level.initializerList
  statement : ReadsAlike twins level.statement
  specifiers : ∀ admitsStorage, Agree twins (DeclarationSpecifiers.Alike twins.like)
    (level.specifiers admitsStorage) (level.specifiers admitsStorage)
  declarator : ∀ form, Agree twins (Declarator.Alike twins.like) (level.declarator form)
    (level.declarator form)

/-! ## Types in front of declarators -/

section BaseType

variable {specifiers other : DeclarationSpecifiers}

theorem agree_unqualifiedBaseType (alike : specifiers.Alike twins.like other) :
    Agree twins (Node.Alike twins.like) (unqualifiedBaseType specifiers)
      (unqualifiedBaseType other) := by
  obtain ⟨placed, _, types⟩ := alike
  unfold unqualifiedBaseType
  dsimp only
  generalize specifiers.named = named at types ⊢
  cases types with
  | none =>
    dsimp only
    split
    · refine agree_then agree_afterC89 fun _ => ?_
      exact agree_when (agree_complain placed rfl nofun) (agree_pure (.named placed))
    · exact agree_pure (.named placed)
    · refine agree_then (agree_complain placed rfl ?_) fun _ => agree_pure (.named placed)
      exact List.forall_mem_map.mpr fun word _ => Likeness.writes_spelling word
  | some type =>
    dsimp only
    rw [type.kind]
    refine agree_ite (agree_pure ?_) (agree_when (agree_complain placed rfl nofun) (agree_pure type))
    obtain ⟨located, _, below⟩ := type
    exact .intro located (.same nofun) below

theorem agree_baseType (alike : specifiers.Alike twins.like other) :
    Agree twins (Node.Alike twins.like) (baseType specifiers) (baseType other) := by
  refine agree_bind (agree_unqualifiedBaseType alike) fun _ _ type => ?_
  obtain ⟨placed, _, _⟩ := alike
  exact agree_pure (specifiers.qualifiers.alike_apply placed type)

end BaseType

/-! ## Tags -/

theorem agree_declareTag {kind : TagKind} {name : String} {place other : SourceLocation}
    {hasBody : Bool} (placed : twins.like.places place other) (written : twins.like.Writes name) :
    Agree twins Eq (declareTag kind name place hasBody) (declareTag kind name other hasBody) := by
  have quoted := List.forall_mem_singleton.mpr written
  refine agree_then agree_scopes fun scopes => ?_
  split
  · exact agree_ite (agree_complain placed rfl quoted) (agree_pure rfl)
  · split
    · exact agree_modifyScopes fun _ => rfl
    · exact agree_complain placed rfl quoted

theorem agree_declareTag? {kind : TagKind} {name : Option String} {place other : SourceLocation}
    {hasBody : Bool} (placed : twins.like.places place other)
    (written : ∀ tag ∈ name, twins.like.Writes tag) :
    Agree twins Eq (declareTag? kind name place hasBody) (declareTag? kind name other hasBody) := by
  cases name with
  | none => exact agree_ite (agree_pure rfl) (agree_unexpected (by decide))
  | some name => exact agree_declareTag placed (written name rfl)

theorem agree_tagName {β : Type} {last : β → β → Prop}
    {continuation otherContinuation : Option String → Parse β}
    (rest : ∀ name, (∀ tag ∈ name, twins.like.Writes tag) →
      Agree twins last (continuation name) (otherContinuation name)) :
    Agree twins last (tagName >>= continuation) (tagName >>= otherContinuation) := by
  have tagged : Agree twins (fun name other => other = name ∧ ∀ tag ∈ name, twins.like.Writes tag)
      tagName tagName := by
    refine agree_then agree_skipAttributes fun _ => agree_bind agree_optionalIdentifier ?_
    intro found other founds
    cases founds with
    | none => exact agree_pure ⟨rfl, nofun⟩
    | some token =>
      obtain ⟨_, _, written⟩ := token
      exact agree_pure ⟨rfl, by rintro _ ⟨⟩; exact written⟩
  refine agree_bind tagged ?_
  rintro _ name ⟨rfl, written⟩
  exact rest name written

theorem agree_expectClosingBrace : Agree twins Eq expectClosingBrace expectClosingBrace :=
  agree_expectPunctuator (by decide)

theorem agree_endOfBody : Agree twins Eq endOfBody endOfBody :=
  agree_then agree_expectClosingBrace fun _ => agree_skipAttributes

theorem alike_fieldDeclaration {like : Likeness} {place otherPlace : SourceLocation}
    {name : Option String} {type otherType : Node} {specifiers other : DeclarationSpecifiers}
    {width otherWidth : Option Node} (placed : like.places place otherPlace)
    (typed : type.Alike like otherType) (alike : specifiers.Alike like other)
    (sized : Option.Rel (Node.Alike like) width otherWidth) :
    (fieldDeclaration place name type specifiers width).Alike like
      (fieldDeclaration otherPlace name otherType other otherWidth) := by
  obtain ⟨_, aligned, _⟩ := alike
  exact .intro placed (.same nofun)
    (.cons typed (Nodes.Alike.append aligned (Nodes.Alike.optional sized)))

/-! ## Through one level -/

variable (inside : deeper.AgreeOn twins)

include inside

theorem agree_expression : ReadsAlike twins deeper.expression := by
  refine agree_bind inside.assignment fun _ _ first => agree_iterate first fun _ _ left => ?_
  refine agree_bind agree_location fun _ _ placed => agree_then agree_consumePunctuator fun _ => ?_
  refine agree_ite ?_ (agree_pure (.done left))
  refine agree_bind inside.assignment fun _ _ right => agree_pure (.yield ?_)
  exact .ofChildren placed (.cons left (.cons right .nil))

theorem agree_typeName : ReadsAlike twins deeper.typeName := by
  refine agree_bind (inside.specifiers false) fun _ _ specified => ?_
  rw [specified.isPresent]
  refine agree_ite (agree_unexpected (by decide)) (agree_bind (agree_baseType specified) fun _ _ base => ?_)
  exact agree_bind (inside.declarator .abstract) fun _ _ declared => agree_pure (declared.type base)

theorem agree_initializer : ReadsAlike twins deeper.initializer :=
  agree_then agree_atPunctuator fun _ => agree_ite inside.initializerList inside.assignment

theorem agree_parenthesizedTypeName : ReadsAlike twins deeper.parenthesizedTypeName :=
  agree_then agree_discard_advance fun _ => agree_bind (agree_typeName inside) fun _ _ type =>
    agree_then agree_expectClosingParen fun _ => agree_pure type

theorem agree_staticAssertion : ReadsAlike twins deeper.staticAssertion := by
  refine agree_bind agree_location fun _ _ placed => agree_then agree_discard_advance fun _ => ?_
  refine agree_then (agree_expectPunctuator (by decide)) fun _ => ?_
  refine agree_bind inside.conditional fun _ _ condition => ?_
  refine agree_then agree_consumePunctuator fun _ => ?_
  refine agree_optional agree_stringLiteral fun _ _ message => ?_
  refine agree_then agree_expectClosingParen fun _ => ?_
  refine agree_then (agree_expectSemicolon (by decide)) fun _ => ?_
  exact agree_pure (.ofChildren placed (.cons condition (Nodes.Alike.optional message)))

/-! ## Structures and unions -/

theorem agree_memberDeclarator {specifiers other : DeclarationSpecifiers} {base otherBase : Node}
    (specified : specifiers.Alike twins.like other) (based : base.Alike twins.like otherBase) :
    Agree twins (Node.Alike twins.like) (memberDeclarator deeper specifiers base)
      (memberDeclarator deeper other otherBase) := by
  refine agree_bind agree_location fun _ _ placed => agree_then agree_atPunctuator fun _ => ?_
  refine agree_either (agree_pure (.intro placed .nil)) (inside.declarator .named)
    fun declarator otherDeclarator declared => ?_
  refine agree_then agree_consumePunctuator fun _ => ?_
  refine agree_optional inside.conditional fun _ _ sized => ?_
  refine agree_then agree_skipAttributes fun _ => agree_pure ?_
  rw [declared.name]
  exact alike_fieldDeclaration declared.placed (declared.type based) specified sized

theorem agree_memberDeclaration :
    Agree twins (Items.Alike twins.like) (memberDeclaration deeper) (memberDeclaration deeper) := by
  refine agree_then agree_consumePunctuator fun _ => agree_ite (agree_pure (.intro .nil)) ?_
  refine agree_then agree_atKeyword fun _ =>
    agree_ite (agree_single (agree_staticAssertion inside)) ?_
  refine agree_bind agree_location fun _ _ placed => ?_
  refine agree_bind (inside.specifiers false) fun _ _ specified => ?_
  rw [specified.isPresent]
  refine agree_ite (agree_unexpected (by decide)) (agree_bind (agree_baseType specified) fun _ _ base => ?_)
  refine agree_then agree_consumePunctuator fun _ => agree_ite (agree_pure ?_) ?_
  · exact .intro (Nodes.Alike.single (alike_fieldDeclaration placed base specified .none))
  · refine agree_bind (agree_separatedItems (agree_memberDeclarator inside specified base)) ?_
    exact fun _ _ members => agree_thenFinish members (agree_expectSemicolon (by decide))

theorem agree_members :
    Agree twins (Nodes.Alike twins.like) (members deeper) (members deeper) := by
  refine agree_then agree_discard_advance fun _ => ?_
  refine agree_bind (agree_recoveringItems (· == .punctuator .closeBrace)
    (agree_memberDeclaration inside)) fun _ _ nodes => ?_
  exact agree_then agree_endOfBody fun _ => agree_pure nodes

omit inside in
theorem agree_body {β : Type} {last : β → β → Prop} {hasBody : Bool} {listed : Parse (Array Node)}
    {continuation otherContinuation : Array Node → Parse β}
    (agree : Agree twins (Nodes.Alike twins.like) listed listed)
    (rest : ∀ nodes others, Nodes.Alike twins.like nodes others →
      Agree twins last (continuation nodes) (otherContinuation others)) :
    Agree twins last
      (if hasBody = true then listed >>= continuation else pure #[] >>= continuation)
      (if hasBody = true then listed >>= otherContinuation else pure #[] >>= otherContinuation) :=
  agree_either agree (agree_pure .nil) rest

theorem agree_structOrUnion : ReadsAlike twins (structOrUnion deeper) := by
  refine agree_bind agree_advance ?_
  rintro _ _ ⟨placed, _⟩
  refine agree_tagName fun _ written => agree_then agree_atPunctuator fun _ => ?_
  refine agree_then (agree_declareTag? placed written) fun _ => ?_
  exact agree_body (agree_members inside) fun _ _ nodes =>
    agree_pure (.intro placed (.same nofun) nodes)

/-! ## Enumerations -/

theorem agree_enumerator : ReadsAlike twins (enumerator deeper) := by
  refine agree_bind agree_expectIdentifier ?_
  rintro _ _ ⟨placed, _⟩
  refine agree_then agree_skipAttributes fun _ => agree_then agree_consume fun _ => ?_
  refine agree_optional inside.conditional fun _ _ value => ?_
  exact agree_then agree_addOrdinary fun _ =>
    agree_pure (.intro placed (.same nofun) (Nodes.Alike.optional value))

theorem agree_enumerators :
    Agree twins (Nodes.Alike twins.like) (enumerators deeper) (enumerators deeper) := by
  refine agree_then agree_discard_advance fun _ => ?_
  refine agree_bind (agree_iterate .nil fun _ _ alike => ?_) fun _ _ nodes =>
    agree_then agree_endOfBody fun _ => agree_pure nodes
  refine agree_bind (agree_enumerator inside) fun _ _ node => ?_
  have more := Nodes.Alike.push alike node
  refine agree_then agree_consumePunctuator fun _ => agree_ite (agree_pure (.done more)) ?_
  exact agree_then agree_atPunctuator fun _ =>
    agree_ite (agree_pure (.done more)) (agree_pure (.yield more))

theorem agree_underlyingType :
    Agree twins (Option.Rel (Node.Alike twins.like)) (underlyingType deeper)
      (underlyingType deeper) := by
  refine agree_then agree_atPunctuator fun _ => agree_ite ?_ (agree_pure .none)
  refine agree_bind agree_peekAhead fun _ _ next => agree_then (agree_isTypeStart next) fun _ => ?_
  refine agree_ite (agree_then agree_discard_advance fun _ => ?_) (agree_pure .none)
  exact agree_map (agree_typeName inside) fun _ _ => .some

theorem agree_enumeration : ReadsAlike twins (enumeration deeper) := by
  refine agree_bind agree_advance ?_
  rintro _ _ ⟨placed, _⟩
  refine agree_tagName fun _ written => ?_
  refine agree_bind (agree_underlyingType inside) fun _ _ underlying => ?_
  refine agree_then agree_atPunctuator fun _ =>
    agree_then (agree_declareTag? placed written) fun _ => ?_
  refine agree_body (agree_enumerators inside) fun _ _ nodes => agree_pure ?_
  exact .intro placed (.same nofun) (Nodes.Alike.append (Nodes.Alike.optional underlying) nodes)

/-! ## Types with an operand -/

theorem agree_typeNameOr {production : Parse Node} (reads : ReadsAlike twins production) :
    ReadsAlike twins (typeNameOr deeper production) :=
  agree_bind agree_peek fun _ _ token => agree_then (agree_isTypeStart token) fun _ =>
    agree_ite (agree_typeName inside) reads

theorem agree_alignment : ReadsAlike twins (alignment deeper) := by
  refine agree_bind agree_advance fun _ _ word => agree_then (agree_expectPunctuator (by decide)) fun _ => ?_
  refine agree_bind (agree_typeNameOr inside inside.conditional) fun _ _ operand => ?_
  exact agree_then agree_expectClosingParen fun _ =>
    agree_pure (.ofChildren word.placed (Nodes.Alike.single operand))

theorem agree_typeofType : ReadsAlike twins (typeofType deeper) := by
  refine agree_bind agree_advance ?_
  rintro _ _ ⟨placed, _⟩
  refine agree_then (agree_expectPunctuator (by decide)) fun _ => ?_
  refine agree_bind (agree_typeNameOr inside (agree_expression inside)) fun _ _ operand => ?_
  exact agree_then agree_expectClosingParen fun _ =>
    agree_pure (.intro placed (.same nofun) (Nodes.Alike.single operand))

theorem agree_atomicType : ReadsAlike twins (atomicType deeper) :=
  agree_bind agree_advance fun _ _ word =>
    agree_bind (agree_parenthesizedTypeName inside) fun _ _ type =>
      agree_pure (.ofChildren word.placed (Nodes.Alike.single type))

theorem agree_bitIntType : ReadsAlike twins (bitIntType deeper) := by
  refine agree_bind agree_advance fun _ _ word => agree_then (agree_expectPunctuator (by decide)) fun _ => ?_
  refine agree_bind inside.conditional fun _ _ width => ?_
  exact agree_then agree_expectClosingParen fun _ =>
    agree_pure (.intro word.placed (.same nofun) (Nodes.Alike.single width))

omit inside in
theorem namedType?_alike {word : Keyword} {next other : Token} (alike : next.Alike twins.like other) :
    namedType? deeper word other = namedType? deeper word next := by
  unfold namedType? Token.isPunctuator
  rw [alike.kind]

theorem agree_namedType? {word : Keyword} {next : Token} {production : Parse Node}
    (found : namedType? deeper word next = some production) : ReadsAlike twins production := by
  unfold namedType? at found
  split at found
  · cases found
    exact agree_structOrUnion inside
  · cases found
    exact agree_structOrUnion inside
  · cases found
    exact agree_enumeration inside
  · cases found
    exact agree_typeofType inside
  · cases found
    exact agree_typeofType inside
  · cases found
    exact agree_bitIntType inside
  · split at found
    · cases found
      exact agree_atomicType inside
    · cases found
  · cases found

omit inside

/-! ## Specifiers -/

section Additions

variable {specifiers other : DeclarationSpecifiers} {token otherToken : Token}
  (alike : specifiers.Alike twins.like other) (tokens : token.Alike twins.like otherToken)

include alike tokens

theorem agree_addNamedType {type otherType : Node} (types : type.Alike twins.like otherType) :
    Agree twins (DeclarationSpecifiers.Alike twins.like) (addNamedType specifiers token type)
      (addNamedType other otherToken otherType) := by
  have isNamed := alike.isSome_named
  unfold addNamedType
  rw [isNamed]
  refine agree_ite (agree_then (agree_complain tokens.placed rfl nofun) fun _ => agree_pure alike) ?_
  obtain ⟨placed, aligned, _⟩ := alike
  exact agree_pure (.intro placed aligned (.some types))

theorem agree_addStorage (word : Keyword) (admitsStorage : Bool) :
    Agree twins (DeclarationSpecifiers.Alike twins.like)
      (addStorage specifiers token word admitsStorage)
      (addStorage other otherToken word admitsStorage) := by
  obtain ⟨placed, aligned, types⟩ := alike
  obtain ⟨located, _, written⟩ := tokens
  have quoted := List.forall_mem_singleton.mpr written
  refine agree_ite (agree_then (agree_complain located rfl quoted) fun _ => ?_) (agree_ite ?_ ?_)
  · exact agree_pure (.intro placed aligned types)
  · exact agree_then (agree_complain located rfl nofun) fun _ => agree_pure (.intro placed aligned types)
  · exact agree_pure (.intro placed aligned types)

/-- The word is a specifier on both sides or on none. -/
theorem agree_addWord? (word : Keyword) (admitsStorage : Bool) :
    Option.Rel (Agree twins (DeclarationSpecifiers.Alike twins.like))
      (addWord? specifiers token word admitsStorage)
      (addWord? other otherToken word admitsStorage) := by
  have storage := agree_addStorage alike tokens word admitsStorage
  obtain ⟨placed, aligned, types⟩ := alike
  obtain ⟨located, _, written⟩ := tokens
  have quoted := List.forall_mem_singleton.mpr written
  unfold addWord?
  dsimp only
  split
  · exact .some (agree_pure (.intro placed aligned types))
  · exact .some (agree_pure (.intro placed aligned types))
  · exact .some (agree_pure (.intro placed aligned types))
  · exact .some (agree_when (agree_complain located rfl quoted)
      (agree_pure (.intro placed aligned types)))
  · split
    · exact .some storage
    · split
      · exact .some (agree_pure (.intro placed aligned types))
      · exact .none

end Additions

theorem agree_yieldSpecifiers {production other : Parse DeclarationSpecifiers}
    (agree : Agree twins (DeclarationSpecifiers.Alike twins.like) production other) :
    Agree twins (StepsAlike (DeclarationSpecifiers.Alike twins.like)) (.yield <$> production)
      (.yield <$> other) :=
  agree_map agree fun _ _ => .yield

theorem agree_addSpecifier (inside : deeper.AgreeOn twins) {admitsStorage : Bool}
    {specifiers other : DeclarationSpecifiers} (alike : specifiers.Alike twins.like other) :
    Agree twins (StepsAlike (DeclarationSpecifiers.Alike twins.like))
      (addSpecifier deeper admitsStorage specifiers) (addSpecifier deeper admitsStorage other) := by
  have missing := alike.isNone_named
  obtain ⟨placed, aligned, types⟩ := alike
  have alike := DeclarationSpecifiers.Alike.intro placed aligned types
  have present := DeclarationSpecifiers.Alike.of { specifiers with isPresent := true } placed aligned
    types
  refine agree_bind agree_peek ?_
  rintro ⟨_, lexeme, _, _⟩ _ ⟨located, valued, written⟩
  dsimp only
  split
  · exact agree_then agree_skipAttributes fun _ => agree_pure (.yield alike)
  · exact agree_then agree_discard_advance fun _ => agree_pure (.yield alike)
  · refine agree_bind (agree_alignment inside) fun _ _ node => agree_pure (.yield ?_)
    exact .of { specifiers with isPresent := true, alignments := _ } placed
      (Nodes.Alike.push aligned node) types
  · rename_i word _ _ _
    have tokens : Token.Alike twins.like ⟨.keyword word, lexeme, _, _⟩ ⟨.keyword word, lexeme, _, _⟩ :=
      .intro located valued written
    refine agree_bind agree_peekAhead fun next otherNext nexts => ?_
    rw [namedType?_alike nexts]
    split
    · rename_i found
      refine agree_bind (agree_namedType? inside found) fun _ _ type => ?_
      exact agree_yieldSpecifiers (agree_addNamedType present tokens type)
    · have additions := agree_addWord? present tokens word admitsStorage
      generalize addWord? _ _ word admitsStorage = addition at additions ⊢
      generalize addWord? _ _ word admitsStorage = otherAddition at additions ⊢
      cases additions with
      | none => exact agree_pure (.done alike)
      | some adds => exact agree_then agree_discard_advance fun _ => agree_yieldSpecifiers adds
  · refine agree_then agree_isTypeName fun _ => ?_
    rw [missing]
    refine agree_ite (agree_then agree_discard_advance fun _ => agree_pure (.yield ?_))
      (agree_pure (.done alike))
    exact .of { specifiers with isPresent := true, named := some _ } placed aligned
      (.some (.named located))
  · exact agree_then agree_atBrackets fun _ => agree_ite
      (agree_then agree_skipAttributes fun _ => agree_pure (.yield alike))
      (agree_pure (.done alike))

theorem agree_specifiersRule (inside : deeper.AgreeOn twins) {admitsStorage : Bool} :
    Agree twins (DeclarationSpecifiers.Alike twins.like) (specifiersRule deeper admitsStorage)
      (specifiersRule deeper admitsStorage) :=
  agree_bind agree_location fun place _ placed =>
    agree_iterate (.of { location := place } placed .nil .none)
      fun _ _ => agree_addSpecifier inside

end CFrontEnd
