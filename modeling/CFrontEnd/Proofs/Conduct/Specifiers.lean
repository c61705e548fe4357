import CFrontEnd.Proofs.Conduct.Items
import CFrontEnd.Grammar.Rules.Specifiers

/-!
Specifiers, with the types that are written out there. The productions one level further in are taken to
go on as far as those of every level do: expressions and statements over a token at least, specifiers
over one if any are present, declarators over one if they have a name.
-/

namespace CFrontEnd

open Parse Productions

/-- Specifiers that are present have used up a token. -/
def DeclarationSpecifiers.worth (specifiers : DeclarationSpecifiers) : Nat :=
  if specifiers.isPresent then 1 else 0

theorem DeclarationSpecifiers.worth_le (specifiers : DeclarationSpecifiers) :
    specifiers.worth ≤ 1 := by
  unfold worth
  split <;> omega

def Use.specifiers : Use DeclarationSpecifiers := fun specifiers => some specifiers.worth

/-- A declarator that must have a name uses up a token. -/
def DeclaratorForm.worth (form : DeclaratorForm) : Nat := if form = .named then 1 else 0

theorem DeclaratorForm.worth_le (form : DeclaratorForm) : form.worth ≤ 1 := by
  unfold worth
  split <;> omega

/-- How far the productions of a level go. -/
structure Productions.Conducted (context : ParseContext) (deeper : Productions) : Prop where
  assignment {known : List TokenKind} : Proceeds context known deeper.assignment 1
  conditional {known : List TokenKind} : Proceeds context known deeper.conditional 1
  cast {known : List TokenKind} : Proceeds context known deeper.cast 1
  unary {known : List TokenKind} : Proceeds context known deeper.unary 1
  initializerList {known : List TokenKind} : Proceeds context known deeper.initializerList 1
  statement {known : List TokenKind} : Proceeds context known deeper.statement 1
  specifiers {known : List TokenKind} (admitsStorage : Bool) :
    Leads context known (deeper.specifiers admitsStorage) .specifiers
  declarator {known : List TokenKind} (form : DeclaratorForm) :
    Proceeds context known (deeper.declarator form) form.worth

variable {α β : Type} {context : ParseContext} {known : List TokenKind} {deeper : Productions}
  {last : Use β} {count : Nat}

theorem Productions.Conducted.anySpecifiers (inside : deeper.Conducted context)
    (admitsStorage : Bool) : Proceeds context known (deeper.specifiers admitsStorage) 0 :=
  (inside.specifiers admitsStorage).mono fun _ _ _ ended =>
    ⟨ended.1, Nat.le_trans (Nat.le_add_right _ _) ended.2⟩

theorem leads_specifiers {production : Parse DeclarationSpecifiers}
    {absent present : DeclarationSpecifiers → Parse β}
    (first : Leads context known production .specifiers)
    (ifAbsent : ∀ specifiers, Leads context [] (absent specifiers) (last.less 0))
    (ifPresent : ∀ specifiers, Leads context [] (present specifiers) (last.less 1)) :
    Leads context known (production >>= fun specifiers =>
      if (!specifiers.isPresent) = true then absent specifiers else present specifiers) last := by
  refine Leads.bind first fun specifiers => ?_
  cases isPresent : specifiers.isPresent with
  | false => simpa [DeclarationSpecifiers.worth, isPresent] using ifAbsent specifiers
  | true => simpa [DeclarationSpecifiers.worth, isPresent] using ifPresent specifiers

/-! ## Strings -/

theorem leads_stringPiece {soFar : StringPieces} {token : Token} {use : Use (ForInStep StringPieces)}
    (same : ∀ pieces, use (.yield pieces) = some 1) :
    Leads context [.literal .string] (do
      discard advance
      match token.value with
      | some (.string units encoding) =>
        if !soFar.admits encoding then complain token.location .mixedStringEncodings
        return .yield (soFar.push units encoding)
      | _ => return .yield soFar) use := by
  have yields : ∀ pieces, use.less 1 (.yield pieces) = some 0 := by simp [Use.less, same]
  refine leads_discard_advance (by simp) ?_
  split
  · refine leads_ite (fun _ => leads_complain (leads_pure ?_)) fun _ => leads_pure (yields _)
    simp [Use.less, same]
  · exact leads_pure (yields _)

theorem proceeds_stringPieces : Proceeds context known stringPieces 1 := by
  refine leads_peek fun token => leads_ite (fun _ => leads_unexpected) fun isString => ?_
  have kind : token.kind = .literal .string := by simpa using isString
  rw [kind]
  refine proceeds_iterateFurther (leads_peekKnown fun token kind => ?_) fun soFar => ?_
  · exact leads_ite (fun other => absurd kind (by simpa using other))
      fun _ => leads_stringPiece fun _ => rfl
  · refine leads_peek fun token => leads_ite (fun _ => leads_pure rfl) fun isString => ?_
    have kind : token.kind = .literal .string := by simpa using isString
    rw [kind]
    exact leads_stringPiece fun _ => rfl

theorem proceeds_stringLiteral : Proceeds context known stringLiteral 1 :=
  leads_location fun _ => leads_bind proceeds_stringPieces fun _ => leads_pure rfl

theorem proceeds_stringText : Proceeds context known stringText 1 :=
  leads_bind proceeds_stringPieces fun _ => leads_pure rfl

/-! ## Types in front of declarators -/

theorem proceeds_baseType {specifiers : DeclarationSpecifiers} :
    Proceeds context known (baseType specifiers) 0 := by
  refine proceeds_first ?_ fun _ => proceeds_pure
  unfold unqualifiedBaseType
  split
  · refine leads_ite (fun _ => proceeds_pure) fun _ => ?_
    exact leads_ite (fun _ => leads_complain (leads_pure rfl)) fun _ => proceeds_pure
  · split
    · refine leads_ask asks_afterC89 fun _ => ?_
      exact leads_ite (fun _ => leads_complain (leads_pure rfl)) fun _ => proceeds_pure
    · exact proceeds_pure
    · exact leads_complain (leads_pure rfl)

/-! ## Tags -/

theorem proceeds_declareTag {kind : TagKind} {name : String} {place : SourceLocation}
    {hasBody : Bool} : Proceeds context known (declareTag kind name place hasBody) 0 := by
  intro state _
  have asked : scopes context state = .ok state.scopes state := rfl
  refine .step asked ?_
  split
  · exact (leads_ite (fun _ => proceeds_complain) fun _ => proceeds_pure).run
  · split
    · rename_i changed added
      exact .of_ok (modifyScopes_apply _) ⟨.rescoped (ScopeStack.outer_addTag added), Nat.le_refl _⟩
    · exact Leads.run proceeds_complain

theorem proceeds_declareTag? {kind : TagKind} {name : Option String} {place : SourceLocation}
    {hasBody : Bool} : Proceeds context known (declareTag? kind name place hasBody) 0 := by
  unfold declareTag?
  split
  · exact proceeds_declareTag
  · exact leads_ite (fun _ => proceeds_pure) fun _ => leads_unexpected

theorem proceeds_tagName : Proceeds context known tagName 0 :=
  leads_bind proceeds_skipAttributes fun _ =>
    leads_bind proceeds_optionalIdentifier fun _ => leads_pure rfl

theorem proceeds_expectClosingBrace : Proceeds context known expectClosingBrace 1 :=
  proceeds_expectPunctuator

theorem proceeds_endOfBody : Proceeds context known endOfBody 1 :=
  leads_bind proceeds_expectClosingBrace fun _ => proceeds_skipAttributes

variable (inside : deeper.Conducted context)

include inside

/-! ## Through one level -/

theorem proceeds_expression : Proceeds context known deeper.expression 1 := by
  refine proceeds_first inside.assignment fun _ => proceeds_iterate fun _ => leads_location fun _ => ?_
  exact leads_consumePunctuator (leads_bind inside.assignment.any fun _ => leads_pure rfl)
    (leads_pure rfl)

theorem proceeds_typeName : Proceeds context known deeper.typeName 1 := by
  refine leads_specifiers (inside.specifiers false) (fun _ => leads_unexpected) fun _ => ?_
  refine leads_bind proceeds_baseType fun _ => ?_
  exact leads_bind (inside.declarator .abstract) fun _ => leads_pure rfl

theorem proceeds_initializer : Proceeds context known deeper.initializer 1 :=
  leads_test sees_atPunctuator inside.initializerList inside.assignment

theorem proceeds_parenthesizedTypeName : Proceeds context known deeper.parenthesizedTypeName 1 := by
  refine leads_bind (proceeds_discard proceeds_advanceAny) fun _ => ?_
  refine proceeds_first (proceeds_typeName inside) fun _ => ?_
  exact leads_bind proceeds_expectClosingParen fun _ => leads_pure rfl

theorem proceeds_staticAssertion : Proceeds context known deeper.staticAssertion 1 := by
  refine leads_location fun _ => leads_bind (proceeds_discard proceeds_advanceAny) fun _ => ?_
  refine leads_bind proceeds_expectPunctuator fun _ => ?_
  refine leads_bind inside.conditional fun _ => leads_bind (proceeds_consume (by simp)) fun _ => ?_
  refine leads_optional (fun _ => proceeds_stringLiteral) fun _ => ?_
  refine leads_bind proceeds_expectClosingParen fun _ => ?_
  exact leads_bind proceeds_expectSemicolon fun _ => leads_pure rfl

/-! ## Structures and unions -/

theorem proceeds_memberDeclarator {specifiers : DeclarationSpecifiers} {base : Node} :
    Proceeds context known (memberDeclarator deeper specifiers base) 1 := by
  refine leads_location fun _ => leads_test sees_atPunctuator ?_ ?_
  · simp only [if_true, pure_bind]
    refine leads_consumeKnown (by simp) (leads_optional (fun _ => inside.conditional) fun _ => ?_)
    exact leads_bind proceeds_skipAttributes fun _ => leads_pure rfl
  · refine leads_bind (inside.declarator .named) fun _ => ?_
    refine leads_bind (proceeds_consume (by simp)) fun _ => ?_
    refine leads_optional (fun _ => inside.conditional) fun _ => ?_
    exact leads_bind proceeds_skipAttributes fun _ => leads_pure rfl

theorem leads_memberDeclaration :
    Leads context known (memberDeclaration deeper) (.items 1) := by
  refine leads_consumePunctuator (leads_pure rfl) (leads_test sees_atKeyword ?_ ?_)
  · exact leads_single (proceeds_staticAssertion inside)
  · refine leads_location fun _ => ?_
    refine leads_specifiers (inside.specifiers false) (fun _ => leads_unexpected) fun _ => ?_
    refine leads_bind proceeds_baseType fun _ => leads_consumePunctuator (leads_pure rfl) ?_
    simp only [Use.less_items]
    refine leads_thenFinish (leads_separatedItems ?_).anyItems proceeds_expectSemicolon.any
    exact proceeds_memberDeclarator inside

theorem proceeds_members : Proceeds context known (members deeper) 1 := by
  refine leads_bind (proceeds_discard proceeds_advanceAny) fun _ => ?_
  refine leads_bind (proceeds_recoveringItems (leads_memberDeclaration inside)) fun _ => ?_
  exact leads_bind proceeds_endOfBody fun _ => leads_pure rfl

theorem proceeds_structOrUnion (begins : Proceeds context known advance count) :
    Proceeds context known (structOrUnion deeper) count := by
  refine proceeds_first begins fun _ => leads_bind proceeds_tagName fun _ => ?_
  refine leads_ask asks_atPunctuator fun _ => leads_bind proceeds_declareTag? fun _ => ?_
  refine leads_either (fun _ => (proceeds_members inside).any) (fun _ => proceeds_pure) fun _ => ?_
  exact leads_pure rfl

/-! ## Enumerations -/

theorem proceeds_enumerator : Proceeds context known (enumerator deeper) 1 := by
  refine leads_bind proceeds_expectIdentifier fun _ => leads_bind proceeds_skipAttributes fun _ => ?_
  refine leads_bind (proceeds_consume (by simp)) fun _ => ?_
  refine leads_optional (fun _ => inside.conditional) fun _ => ?_
  exact leads_bind proceeds_addOrdinary fun _ => leads_pure rfl

theorem proceeds_enumerators : Proceeds context known (enumerators deeper) 1 := by
  refine leads_bind (proceeds_discard proceeds_advanceAny) fun _ => ?_
  refine leads_bind (proceeds_iterate fun _ => ?_) fun _ => ?_
  · refine leads_bind (proceeds_enumerator inside) fun _ => leads_consumePunctuator ?_ (leads_pure rfl)
    exact leads_test sees_atPunctuator (leads_pure rfl) (leads_pure rfl)
  · exact leads_bind proceeds_endOfBody fun _ => leads_pure rfl

theorem proceeds_underlyingType : Proceeds context known (underlyingType deeper) 0 := by
  refine leads_test sees_atPunctuator (leads_ask asks_peekAhead fun next => ?_) proceeds_pure
  refine leads_ask asks_isTypeStart fun _ => leads_ite (fun _ => ?_) fun _ => proceeds_pure
  exact leads_discard_advance (by simp) (proceeds_map (proceeds_typeName inside)).any

theorem proceeds_enumeration (begins : Proceeds context known advance count) :
    Proceeds context known (enumeration deeper) count := by
  refine proceeds_first begins fun _ => leads_bind proceeds_tagName fun _ => ?_
  refine leads_bind (proceeds_underlyingType inside) fun _ => leads_ask asks_atPunctuator fun _ => ?_
  refine leads_bind proceeds_declareTag? fun _ => ?_
  refine leads_either (fun _ => (proceeds_enumerators inside).any) (fun _ => proceeds_pure) fun _ => ?_
  exact leads_pure rfl

/-! ## Types with an operand -/

theorem proceeds_typeNameOr {production : Parse Node} (other : Proceeds context known production 1) :
    Proceeds context known (typeNameOr deeper production) 1 := by
  refine leads_ask asks_peek fun _ => leads_ask asks_isTypeStart fun _ => ?_
  exact leads_ite (fun _ => proceeds_typeName inside) fun _ => other

theorem proceeds_alignment : Proceeds context known (alignment deeper) 1 := by
  refine leads_bind proceeds_advanceAny fun _ => leads_bind proceeds_expectPunctuator fun _ => ?_
  refine leads_bind (proceeds_typeNameOr inside inside.conditional) fun _ => ?_
  exact leads_bind proceeds_expectClosingParen fun _ => leads_pure rfl

theorem proceeds_typeofType : Proceeds context known (typeofType deeper) 1 := by
  refine leads_bind proceeds_advanceAny fun _ => leads_bind proceeds_expectPunctuator fun _ => ?_
  refine leads_bind (proceeds_typeNameOr inside (proceeds_expression inside)) fun _ => ?_
  exact leads_bind proceeds_expectClosingParen fun _ => leads_pure rfl

theorem proceeds_atomicType : Proceeds context known (atomicType deeper) 1 := by
  refine leads_bind proceeds_advanceAny fun _ => ?_
  exact proceeds_first (proceeds_parenthesizedTypeName inside) fun _ => proceeds_pure

theorem proceeds_bitIntType : Proceeds context known (bitIntType deeper) 1 := by
  refine leads_bind proceeds_advanceAny fun _ => leads_bind proceeds_expectPunctuator fun _ => ?_
  refine leads_bind inside.conditional fun _ => ?_
  exact leads_bind proceeds_expectClosingParen fun _ => leads_pure rfl

theorem proceeds_namedType? {word : Keyword} {next : Token} {production : Parse Node}
    (found : namedType? deeper word next = some production) :
    Proceeds context (.keyword word :: known) production 1 := by
  have begins : Proceeds context (.keyword word :: known) advance 1 := proceeds_advance (by simp)
  unfold namedType? at found
  split at found
  · cases found
    exact proceeds_structOrUnion inside begins
  · cases found
    exact proceeds_structOrUnion inside begins
  · cases found
    exact proceeds_enumeration inside begins
  · cases found
    exact proceeds_typeofType inside
  · cases found
    exact proceeds_typeofType inside
  · cases found
    exact proceeds_bitIntType inside
  · split at found
    · cases found
      exact proceeds_atomicType inside
    · cases found
  · cases found

omit inside

/-! ## Specifiers -/

variable {specifiers : DeclarationSpecifiers} {token : Token}

theorem proceeds_addNamedType {type : Node} :
    Proceeds context known (addNamedType specifiers token type) 0 :=
  leads_ite (fun _ => leads_complain (leads_pure rfl)) fun _ => proceeds_pure

theorem proceeds_addStorage {word : Keyword} {admitsStorage : Bool} :
    Proceeds context known (addStorage specifiers token word admitsStorage) 0 := by
  refine leads_ite (fun _ => leads_complain (leads_pure rfl)) fun _ => ?_
  exact leads_ite (fun _ => leads_complain (leads_pure rfl)) fun _ => proceeds_pure

theorem proceeds_addWord? {word : Keyword} {admitsStorage : Bool}
    {addition : Parse DeclarationSpecifiers}
    (found : addWord? specifiers token word admitsStorage = some addition) :
    Proceeds context known addition 0 := by
  unfold addWord? at found
  split at found
  · cases found
    exact proceeds_pure
  · cases found
    exact proceeds_pure
  · cases found
    exact proceeds_pure
  · cases found
    exact leads_ite (fun _ => leads_complain (leads_pure rfl)) fun _ => proceeds_pure
  · split at found
    · cases found
      exact proceeds_addStorage
    · split at found
      · cases found
        exact proceeds_pure
      · cases found

/-- What a step of reading specifiers has to use up where `specifiers` have been read. -/
def Use.specifier (specifiers : DeclarationSpecifiers) : Use (ForInStep DeclarationSpecifiers) :=
  (Use.specifiers.less specifiers.worth).step

theorem Use.specifier_done : Use.specifier specifiers (.done specifiers) = some 0 := by
  simp [Use.specifier, Use.step, Use.less, Use.specifiers]

theorem proceeds_yieldSpecifiers {production : Parse DeclarationSpecifiers}
    (proceeds : Proceeds context [] production 0) :
    Leads context known (.yield <$> production) ((Use.specifier specifiers).less 1) :=
  leads_map (Leads.at proceeds) fun _ => rfl

include inside

theorem leads_addSpecifier {admitsStorage : Bool} :
    Leads context known (addSpecifier deeper admitsStorage specifiers) (.specifier specifiers) := by
  have ends : ∀ {kinds : List TokenKind},
      Leads context kinds (pure (.done specifiers)) (.specifier specifiers) :=
    leads_pure Use.specifier_done
  refine leads_peek fun token => ?_
  dsimp only
  split
  · exact .of_kind ‹_› (leads_bind proceeds_skipAttributes_word fun _ => leads_pure rfl)
  · exact .of_kind ‹_› (leads_discard_advance (by simp) (leads_pure rfl))
  · exact leads_bind (proceeds_alignment inside) fun _ => leads_pure rfl
  · rename_i word _ _ _ kind
    rw [kind]
    refine leads_ask asks_peekAhead fun next => ?_
    split
    · rename_i production found
      refine leads_bind (proceeds_namedType? inside found) fun type => ?_
      exact proceeds_yieldSpecifiers proceeds_addNamedType
    · split
      · rename_i addition found
        exact leads_discard_advance (by simp) (proceeds_yieldSpecifiers (proceeds_addWord? found))
      · exact ends
  · refine .of_kind ‹_› ?_
    refine leads_ask asks_isTypeName fun _ => leads_ite (fun _ => ?_) fun _ => ends
    exact leads_discard_advance (by simp) (leads_pure rfl)
  · refine leads_test sees_atBrackets ?_ ends
    exact leads_bind proceeds_skipAttributes_brackets fun _ => leads_pure rfl

theorem leads_specifiersRule {admitsStorage : Bool} :
    Leads context known (specifiersRule deeper admitsStorage) .specifiers :=
  leads_location fun _ =>
    leads_iterateCarrying DeclarationSpecifiers.worth_le fun _ => leads_addSpecifier inside

end CFrontEnd
