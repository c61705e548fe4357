import CFrontEnd.Proofs.Recovery.Items
import CFrontEnd.Grammar.Rules.Specifiers

/-!
Specifiers do not pass a fence, if the productions one level further in do not. The members of a type
are in braces of their own, and so are the constants of an enumeration.
-/

namespace CFrontEnd

open Parse

/-- The place of the specifiers is one that a problem may be reported at. -/
structure Fence.Located {context : ParseContext} (fence : Fence context)
    (specifiers : DeclarationSpecifiers) (next : ParseState) : Prop where
  holds : fence.Holds next
  covered : fence.Covers specifiers.location

/-- No production of the level passes a fence. Statements end with a semicolon, so that they stay in
front of braces only. -/
structure Productions.Fenced (context : ParseContext) (deeper : Productions) : Prop where
  assignment {fence : Fence context} {known : List TokenKind} :
    fence.Confined known deeper.assignment
  conditional {fence : Fence context} {known : List TokenKind} :
    fence.Confined known deeper.conditional
  cast {fence : Fence context} {known : List TokenKind} : fence.Confined known deeper.cast
  unary {fence : Fence context} {known : List TokenKind} : fence.Confined known deeper.unary
  initializerList {fence : Fence context} {known : List TokenKind} :
    fence.Confined known deeper.initializerList
  statement {fence : Fence context} {known : List TokenKind} (isBrace : fence.mark = .closeBrace) :
    fence.Confined known deeper.statement
  specifiers {fence : Fence context} {known : List TokenKind} (admitsStorage : Bool) :
    fence.Leads known (deeper.specifiers admitsStorage) fence.Located
  declarator {fence : Fence context} {known : List TokenKind} (form : DeclaratorForm) :
    fence.Confined known (deeper.declarator form)
  named {fence : Fence context} {known : List TokenKind} :
    fence.Leads known (deeper.declarator .named) fun _ next => fence.Onward next

namespace Fence

variable {β : Type} {context : ParseContext} {fence : Fence context} {known : List TokenKind}
  {deeper : Productions} {Last : β → ParseState → Prop}

theorem leads_specifiers {production : Parse DeclarationSpecifiers}
    {continuation : DeclarationSpecifiers → Parse β}
    (first : fence.Leads known production fence.Located)
    (rest : ∀ specifiers : DeclarationSpecifiers, fence.Covers specifiers.location →
      fence.Leads [] (continuation specifiers) Last) :
    fence.Leads known (production >>= continuation) Last :=
  first.bind fun specifiers _ located => ⟨located.holds, rest specifiers located.covered⟩

/-! ## Strings -/

theorem confined_stringPieces : fence.Confined known stringPieces := by
  refine leads_peek fun _ _ => leads_ite (fun _ => leads_unexpected) fun _ => ?_
  refine confined_iterate fun soFar => leads_peek fun token covered => ?_
  refine leads_ite (fun _ => confined_pure) fun isString => ?_
  have kind : token.kind = .literal .string := by simpa using isString
  rw [kind]
  refine leads_discard_advance (by simp) ?_
  split
  · exact leads_ite (fun _ => leads_complain covered confined_pure) fun _ => confined_pure
  · exact confined_pure

theorem confined_stringLiteral : fence.Confined known stringLiteral :=
  leads_location fun _ _ => leads_bind confined_stringPieces fun _ => confined_pure

theorem confined_stringText : fence.Confined known stringText :=
  leads_bind confined_stringPieces fun _ => confined_pure

/-! ## Types in front of declarators -/

theorem confined_baseType {specifiers : DeclarationSpecifiers}
    (covered : fence.Covers specifiers.location) : fence.Confined known (baseType specifiers) := by
  refine leads_bind ?_ fun _ => confined_pure
  unfold unqualifiedBaseType
  split
  · refine leads_ite (fun _ => confined_pure) fun _ => ?_
    exact leads_ite (fun _ => leads_complain covered confined_pure) fun _ => confined_pure
  · split
    · refine leads_ask asks_afterC89 fun _ => ?_
      exact leads_ite (fun _ => leads_complain covered confined_pure) fun _ => confined_pure
    · exact confined_pure
    · exact leads_complain covered confined_pure

/-! ## Tags -/

theorem keeps_declareTag {kind : TagKind} {name : String} {place : SourceLocation}
    {hasBody : Bool} (covered : fence.Covers place) :
    fence.Keeps known (Productions.declareTag kind name place hasBody) := by
  refine leads_ask asks_scopes fun scopes => ?_
  split
  · exact leads_ite (fun _ => keeps_complain covered) fun _ => keeps_pure
  · split
    · exact keeps_modifyScopes
    · exact keeps_complain covered

theorem keeps_declareTag? {kind : TagKind} {name : Option String} {place : SourceLocation}
    {hasBody : Bool} (covered : fence.Covers place) :
    fence.Keeps known (Productions.declareTag? kind name place hasBody) := by
  unfold Productions.declareTag?
  split
  · exact keeps_declareTag covered
  · exact leads_ite (fun _ => keeps_pure) fun _ => leads_unexpected

theorem confined_tagName : fence.Confined known Productions.tagName :=
  leads_bind confined_skipAttributes fun _ => leads_bind confined_optionalIdentifier
    fun _ => confined_pure

variable (inside : deeper.Fenced context)

include inside

/-! ## Through one level -/

theorem confined_expression : fence.Confined known deeper.expression := by
  refine leads_bind inside.assignment fun _ => confined_iterate fun _ => leads_location fun _ _ => ?_
  exact leads_consumePunctuator (by simp) (leads_bind inside.assignment fun _ => confined_pure)
    confined_pure

theorem confined_typeName : fence.Confined known deeper.typeName := by
  refine leads_specifiers (inside.specifiers false) fun _ covered => ?_
  refine leads_ite (fun _ => leads_unexpected) fun _ => ?_
  refine leads_bind (confined_baseType covered) fun _ => ?_
  exact leads_bind (inside.declarator .abstract) fun _ => confined_pure

theorem confined_initializer : fence.Confined known deeper.initializer :=
  leads_atPunctuator inside.initializerList inside.assignment

theorem confined_parenthesizedTypeName :
    fence.Confined [.punctuator .openParen] deeper.parenthesizedTypeName := by
  refine leads_discard_advance (by simp) (leads_bind (confined_typeName inside) fun _ => ?_)
  exact leads_bind confined_expectClosingParen fun _ => confined_pure

/-- Up to its semicolon, which may be the fence. -/
theorem leads_staticAssertion :
    fence.Leads [.keyword .staticAssertWord] deeper.staticAssertion
      fun _ next => fence.Past next := by
  refine leads_location fun _ _ => leads_discard_advance (by simp) ?_
  refine leads_bind (confined_expectPunctuator (by simp)) fun _ => ?_
  refine leads_bind inside.conditional fun _ => ?_
  refine leads_consumed (by simp) fun _ => leads_optional (fun _ => confined_stringLiteral) fun _ => ?_
  exact leads_bind confined_expectClosingParen fun _ => leads_lastSemicolon

/-! ## Structures and unions -/

theorem confined_memberDeclarator {specifiers : DeclarationSpecifiers} {base : Node} :
    fence.Confined known (Productions.memberDeclarator deeper specifiers base) := by
  refine leads_location fun _ _ => leads_ask asks_atPunctuator fun _ => ?_
  refine leads_either (fun _ => confined_pure) (fun _ => inside.declarator .named) fun _ => ?_
  refine leads_consumed (by simp) fun _ => leads_optional (fun _ => inside.conditional) fun _ => ?_
  exact leads_bind confined_skipAttributes fun _ => confined_pure

theorem leads_memberDeclaration (isBrace : fence.mark = .closeBrace) :
    fence.Leads known (Productions.memberDeclaration deeper)
      (fence.Ended fun next => next.panicking = false) := by
  refine leads_consumePunctuator (admits_semicolon isBrace) (leads_pure ?_) ?_
  · exact fun _ holds => ⟨by simp, fun _ => holds.calm⟩
  · refine leads_atKeyword ?_ ?_
    · exact leads_single ((leads_staticAssertion inside).mono fun _ _ _ past => past.calm)
    refine leads_location fun _ _ => leads_specifiers (inside.specifiers false) fun _ covered => ?_
    refine leads_ite (fun _ => leads_unexpected) fun _ => ?_
    refine leads_bind (confined_baseType covered) fun _ => ?_
    refine leads_consumePunctuator (admits_semicolon isBrace) (leads_pure ?_) ?_
    · exact fun _ holds => ⟨by simp, fun _ => holds.calm⟩
    · exact leads_thenFinish (leads_separatedItems (confined_memberDeclarator inside))
        (leads_expectSemicolon.mono fun _ _ _ past => past.calm)

theorem confined_members : fence.Confined [.punctuator .openBrace] (Productions.members deeper) := by
  simp only [Productions.members, Productions.endOfBody, bind_assoc]
  refine leads_braced (fun inner isBrace => ?_) fun _ => ?_
  · exact confined_recoveringItems isBrace (by simp) (leads_memberDeclaration inside isBrace)
  · exact leads_bind confined_skipAttributes fun _ => confined_pure

theorem confined_structOrUnion {word : Keyword} :
    fence.Confined [.keyword word] (Productions.structOrUnion deeper) := by
  refine leads_advance (by simp) fun token covered => ?_
  refine leads_bind confined_tagName fun _ => leads_atPunctuator ?_ ?_
  · refine leads_keep (keeps_declareTag? covered) fun _ => ?_
    exact leads_either (fun _ => confined_members inside) (fun absurd => by simp at absurd)
      fun _ => confined_pure
  · refine leads_keep (keeps_declareTag? covered) fun _ => ?_
    exact leads_either (fun absurd => by simp at absurd) (fun _ => confined_pure)
      fun _ => confined_pure

/-! ## Enumerations -/

theorem confined_enumerator : fence.Confined known (Productions.enumerator deeper) := by
  refine leads_bind confined_expectIdentifier fun _ => leads_bind confined_skipAttributes fun _ => ?_
  refine leads_consumed (by simp) fun _ => leads_optional (fun _ => inside.conditional) fun _ => ?_
  exact leads_bind confined_addOrdinary fun _ => confined_pure

theorem confined_enumerators :
    fence.Confined [.punctuator .openBrace] (Productions.enumerators deeper) := by
  simp only [Productions.enumerators, Productions.endOfBody, bind_assoc]
  refine leads_braced (fun inner isBrace => ?_) fun _ => ?_
  · refine confined_iterate fun _ => leads_bind (confined_enumerator inside) fun _ => ?_
    refine leads_consumePunctuator (by simp) ?_ confined_pure
    exact leads_atPunctuator confined_pure confined_pure
  · exact leads_bind confined_skipAttributes fun _ => confined_pure

theorem confined_underlyingType : fence.Confined known (Productions.underlyingType deeper) := by
  refine leads_atPunctuator (leads_peekAhead fun next => ?_) confined_pure
  refine leads_ask asks_isTypeStart fun _ => leads_ite (fun _ => ?_) fun _ => confined_pure
  exact leads_discard_advance (by simp) (confined_map (confined_typeName inside)).at

theorem confined_enumeration {word : Keyword} :
    fence.Confined [.keyword word] (Productions.enumeration deeper) := by
  refine leads_advance (by simp) fun token covered => ?_
  refine leads_bind confined_tagName fun _ => ?_
  refine leads_bind (confined_underlyingType inside) fun _ => leads_atPunctuator ?_ ?_
  · refine leads_keep (keeps_declareTag? covered) fun _ => ?_
    exact leads_either (fun _ => confined_enumerators inside) (fun absurd => by simp at absurd)
      fun _ => confined_pure
  · refine leads_keep (keeps_declareTag? covered) fun _ => ?_
    exact leads_either (fun absurd => by simp at absurd) (fun _ => confined_pure)
      fun _ => confined_pure

/-! ## Types with an operand -/

theorem confined_typeNameOr {production : Parse Node} (other : fence.Confined [] production) :
    fence.Confined known (Productions.typeNameOr deeper production) := by
  refine leads_peek fun _ _ => leads_ask asks_isTypeStart fun _ => ?_
  exact leads_ite (fun _ => confined_typeName inside) fun _ => other.at

theorem confined_alignment {word : Keyword} :
    fence.Confined [.keyword word] (Productions.alignment deeper) := by
  refine leads_advance (by simp) fun _ _ => leads_bind (confined_expectPunctuator (by simp)) fun _ => ?_
  refine leads_bind (confined_typeNameOr inside inside.conditional) fun _ => ?_
  exact leads_bind confined_expectClosingParen fun _ => confined_pure

theorem confined_typeofType {word : Keyword} :
    fence.Confined [.keyword word] (Productions.typeofType deeper) := by
  refine leads_advance (by simp) fun _ _ => leads_bind (confined_expectPunctuator (by simp)) fun _ => ?_
  refine leads_bind (confined_typeNameOr inside (confined_expression inside)) fun _ => ?_
  exact leads_bind confined_expectClosingParen fun _ => confined_pure

theorem confined_atomicType {word : Keyword} :
    fence.Confined [.keyword word, .punctuator .openParen] (Productions.atomicType deeper) := by
  refine leads_advance (by simp) fun _ _ => ?_
  exact leads_bind (confined_parenthesizedTypeName inside) fun _ => confined_pure

theorem confined_bitIntType {word : Keyword} :
    fence.Confined [.keyword word] (Productions.bitIntType deeper) := by
  refine leads_advance (by simp) fun _ _ => leads_bind (confined_expectPunctuator (by simp)) fun _ => ?_
  refine leads_bind inside.conditional fun _ => ?_
  exact leads_bind confined_expectClosingParen fun _ => confined_pure

theorem confined_namedType? {word : Keyword} {next : Token} {production : Parse Node}
    (found : Productions.namedType? deeper word next = some production) :
    fence.Confined [.keyword word, next.kind] production := by
  unfold Productions.namedType? at found
  split at found
  · cases found
    exact (confined_structOrUnion inside).first
  · cases found
    exact (confined_structOrUnion inside).first
  · cases found
    exact (confined_enumeration inside).first
  · cases found
    exact (confined_typeofType inside).first
  · cases found
    exact (confined_typeofType inside).first
  · cases found
    exact (confined_bitIntType inside).first
  · split at found
    · rename_i opens
      cases found
      have kind : next.kind = .punctuator .openParen := by simpa using opens
      rw [kind]
      exact confined_atomicType inside
    · cases found
  · cases found

omit inside

/-! ## Specifiers -/

variable {specifiers : DeclarationSpecifiers} {token : Token}

theorem leads_yield (here : fence.Covers specifiers.location) :
    fence.Leads known (pure (.yield specifiers)) (Stepped fence.Located fence.Located) :=
  leads_pure fun _ holds => .of_yield ⟨holds, here⟩ ⟨holds.stall, here⟩

theorem leads_done (here : fence.Covers specifiers.location) :
    fence.Leads known (pure (.done specifiers)) (Stepped fence.Located fence.Located) :=
  leads_pure fun _ holds => .of_done ⟨holds, here⟩

theorem leads_addNamedType {type : Node} (covered : fence.Covers token.location)
    (here : fence.Covers specifiers.location) :
    fence.Leads known (Productions.addNamedType specifiers token type) fence.Located :=
  leads_ite (fun _ => leads_complain covered (leads_pure fun _ holds => ⟨holds, here⟩))
    fun _ => leads_pure fun _ holds => ⟨holds, here⟩

theorem leads_addStorage {word : Keyword} {admitsStorage : Bool}
    (covered : fence.Covers token.location) (here : fence.Covers specifiers.location) :
    fence.Leads known (Productions.addStorage specifiers token word admitsStorage) fence.Located := by
  refine leads_ite (fun _ => leads_complain covered (leads_pure fun _ holds => ⟨holds, here⟩))
    fun _ => ?_
  exact leads_ite (fun _ => leads_complain covered (leads_pure fun _ holds => ⟨holds, here⟩))
    fun _ => leads_pure fun _ holds => ⟨holds, here⟩

theorem leads_addWord? {word : Keyword} {admitsStorage : Bool}
    {addition : Parse DeclarationSpecifiers} (covered : fence.Covers token.location)
    (here : fence.Covers specifiers.location)
    (found : Productions.addWord? specifiers token word admitsStorage = some addition) :
    fence.Leads known addition fence.Located := by
  have located : ∀ {kinds : List TokenKind} (more : DeclarationSpecifiers),
      more.location = specifiers.location → fence.Leads kinds (pure more) fence.Located := by
    intro kinds more same
    exact leads_pure fun _ holds => ⟨holds, same ▸ here⟩
  unfold Productions.addWord? at found
  split at found
  · cases found
    exact located _ rfl
  · cases found
    exact located _ rfl
  · cases found
    exact located _ rfl
  · cases found
    exact leads_ite (fun _ => leads_complain covered (located _ rfl)) fun _ => located _ rfl
  · split at found
    · cases found
      exact leads_addStorage covered here
    · split at found
      · cases found
        exact located _ rfl
      · cases found

include inside

theorem leads_addSpecifier {admitsStorage : Bool} (here : fence.Covers specifiers.location) :
    fence.Leads [] (Productions.addSpecifier deeper admitsStorage specifiers)
      (Stepped fence.Located fence.Located) := by
  refine leads_peek fun token covered => ?_
  dsimp only
  split
  · exact leads_bind confined_skipAttributes fun _ => leads_yield here
  · exact .of_kind ‹_› (leads_discard_advance (by simp) (leads_yield here))
  · exact .of_kind ‹_› (leads_bind (confined_alignment inside) fun _ => leads_yield here)
  · rename_i word _ _ _ kind
    rw [kind]
    refine leads_peekAhead fun next => ?_
    split
    · rename_i production found
      refine leads_bind (confined_namedType? inside found) fun type => ?_
      exact leads_map (leads_addNamedType covered here) fun _ _ located =>
        .of_yield located ⟨located.holds.stall, located.covered⟩
    · split
      · rename_i addition found
        have stillHere : fence.Covers { specifiers with isPresent := true }.location := here
        refine leads_discard_advance (by simp) ?_
        exact leads_map (leads_addWord? covered stillHere found) fun _ _ located =>
          .of_yield located ⟨located.holds.stall, located.covered⟩
      · exact leads_done here
  · refine .of_kind ‹_› ?_
    refine leads_ask asks_isTypeName fun _ => leads_ite (fun _ => ?_) fun _ => leads_done here
    exact leads_discard_advance (by simp) (leads_yield here)
  · refine leads_atBrackets ?_ (leads_done here)
    exact leads_bind confined_skipAttributes fun _ => leads_yield here

theorem leads_specifiersRule {admitsStorage : Bool} :
    fence.Leads known (Productions.specifiersRule deeper admitsStorage) fence.Located := by
  refine leads_location fun place covered state holds _ => ?_
  exact Confines.repeatFrom (fun _ _ located =>
    (leads_addSpecifier inside located.covered).run located.holds)
    ⟨holds, covered⟩

end Fence

end CFrontEnd
