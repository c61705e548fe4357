import CFrontEnd.Proofs.Statements.Parts
import CFrontEnd.Proofs.Strings.RoundTrip
import CFrontEnd.Proofs.Types.BuiltinNames

/-!
An assembly statement that is a template and nothing else: the node has the text of the string.
-/

namespace CFrontEnd

/-- The words of an assembly statement with this template. -/
def assemblyWords (pieces : List (List Nat)) (encoding : Encoding) : List Word :=
  .ofKeyword .asmWord :: .openParen ::
    (pieces.map (Word.string · encoding) ++ [.closeParen, .semicolon])

theorem length_assemblyWords (pieces : List (List Nat)) (encoding : Encoding) :
    (assemblyWords pieces encoding).length = 2 + pieces.length + 2 := by
  simp [assemblyWords]
  omega

namespace Productions

open Parse

variable {context : ParseContext} {state : ParseState} {deeper : Productions} {encoding : Encoding}
  {pieces : List (List Nat)}

theorem assembly_template (notEmpty : pieces ≠ [])
    (has : context.tokens.HasWordsAt state.position (assemblyWords pieces encoding)) :
    assembly deeper context state =
      .ok ⟨.assembly, (context.tokens.get state.position).location,
          .name (encoding.decode pieces.flatten), []⟩
        (state.movedTo (state.position + (2 + pieces.length + 2))) := by
  obtain ⟨isWord, isOpen, hasRest⟩ := has
  obtain ⟨hasPieces, isClose, isEnd, _⟩ := (context.tokens.hasWordsAt_append _ _ _).mp hasRest
  rw [List.length_map] at isClose isEnd
  have begins := (Token.word_eq_mk.mp isWord).1
  have opens := (Token.word_eq_mk.mp isOpen).1
  have closes : (context.tokens.get (state.position + 2 + pieces.length)).kind =
      .punctuator .closeParen := (Token.word_eq_mk.mp isClose).1
  have ends : (context.tokens.get (state.position + 2 + pieces.length + 1)).kind =
      .punctuator .semicolon := (Token.word_eq_mk.mp isEnd).1
  have template : stringText context (state.movedTo (state.position + 2)) = .ok _ _ :=
    stringText_pieces notEmpty hasPieces (by simp [closes])
  have noWords : skipAssemblyWords context (state.movedTo (state.position + 1)) =
      .ok () (state.movedTo (state.position + 1)) :=
    repeatFrom_done (by simp [opens])
  -- The closing parenthesis is where the lists would begin, so there are none.
  have noLists : assemblyLists deeper context
      (state.movedTo (state.position + 2 + pieces.length)) =
        .ok #[] (state.movedTo (state.position + 2 + pieces.length)) := by
    simp only [assemblyLists, bind_apply, iterate_apply]
    rw [repeatFrom]
    simp [closes]
  have length : state.position + 2 + pieces.length + 1 + 1 =
      state.position + (2 + pieces.length + 2) := by omega
  rw [← length]
  simp [assembly, begins, noWords, opens, template, noLists, closes, expectSemicolon, ends]

theorem statementRule_assembly
    (begins : (context.tokens.get state.position).kind = .keyword .asmWord) :
    statementRule deeper context state = assembly deeper context state := by
  have noAttributes : skipAttributes context state = .ok () state :=
    skipAttributes_none (by simp [begins, TokenKind.mayBeginAttribute])
  simp [statementRule, noAttributes, begins]

end Productions

/-- An assembly statement with the given units for its template. -/
def assemblySource (units : List Nat) : String :=
  Keyword.asmWord.spelling ++ "(" ++ stringSpelling units .plain ++ ");"

/-- The pieces that the template is written in. -/
def assemblyPieces (units : List Nat) : List (List Nat) :=
  (cutAtSeams false units).1 :: (cutAtSeams false units).2

theorem tokenize_assemblySource {units : List Nat}
    (fits : ∀ unit ∈ units, unit ≤ Encoding.plain.maxUnit) (name : String)
    (diagnostics : Diagnostics) :
    ∃ tokens, tokenize (cLanguage gnuC17) ⟨name, assemblySource units⟩ diagnostics =
        (tokens, diagnostics) ∧
      tokens.body.toList.map Token.word = assemblyWords (assemblyPieces units) .plain := by
  have spelled : Keyword.asmWord.IsSpelledIn gnuC17 := by decide +kernel
  have closes : ScansAs gnuC17 [')', ';'] [.closeParen, .semicolon] [] :=
    .closeParen (.semicolon (.nil []))
  have template : ScansAs gnuC17 (stringSpelling units .plain).toList
      ((assemblyPieces units).map (Word.string · .plain)) [')', ';'] := .stringSpelling fits _
  have inParens : ScansAs gnuC17 ('(' :: ((stringSpelling units .plain).toList ++ [')', ';'])) _ [] :=
    .openParen (template.append closes)
  have scans := (ScansAs.ofKeyword spelled (.cons _ (by decide))).append inParens
  have isText : (assemblySource units).toList = Keyword.asmWord.spelling.toList ++
      '(' :: ((stringSpelling units .plain).toList ++ [')', ';']) := by
    simp [assemblySource]
  rw [← isText] at scans
  exact scans.tokenize name diagnostics

theorem parseRule_assemblySource {units : List Nat}
    (fits : ∀ unit ∈ units, unit ≤ Encoding.plain.maxUnit) (name : String)
    (diagnostics : Diagnostics) :
    ∃ tokens place,
      tokenize (cLanguage gnuC17) ⟨name, assemblySource units⟩ diagnostics = (tokens, diagnostics) ∧
      (cLanguage gnuC17).parseRule "statement" tokens diagnostics =
        (some ⟨.assembly, place, .name (Encoding.plain.decode units), []⟩, diagnostics) := by
  obtain ⟨tokens, tokenized, isWords⟩ := tokenize_assemblySource fits name diagnostics
  have has : tokens.HasWordsAt 0 _ := isWords ▸ tokens.hasWordsAt_body
  have notEmpty : assemblyPieces units ≠ [] := List.cons_ne_nil _ _
  have whole : (assemblyPieces units).flatten = units := flatten_cutAtSeams false units
  let context := (cLanguage gnuC17).context tokens
  let state := ParseState.first diagnostics
  have begins : (context.tokens.get state.position).kind = .keyword .asmWord :=
    (Token.word_eq_mk.mp has.1).1
  have template : Productions.assembly (.ofLevels (maxNesting - 1)) context state = .ok _ _ :=
    Productions.assembly_template notEmpty has
  have read : (Productions.ofLevels maxNesting).statement context state = .ok _ _ :=
    (Productions.statementRule_assembly begins).trans template
  have ends := TokenStream.get_behind_words isWords
  rw [length_assemblyWords] at ends
  rw [whole] at read
  exact ⟨tokens, _, tokenized, Language.parseRule_ok .statement read ends⟩

end CFrontEnd
