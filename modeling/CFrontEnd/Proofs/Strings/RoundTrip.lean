import CFrontEnd.Proofs.Expression.Reading
import CFrontEnd.Proofs.Grammar.Start
import CFrontEnd.Proofs.Spelling.OperatorTrees
import CFrontEnd.Proofs.Strings.Pieces

/-!
Code units come back from the text of a string literal: the parser puts the pieces together that the
text was cut into.
-/

namespace CFrontEnd

/-- A string literal as it is scanned. -/
structure ScannedString where
  lexeme : String
  units : List Nat
  encoding : Encoding

def ScannedString.word (literal : ScannedString) : Word :=
  ⟨.literal .string, literal.lexeme, some (.string literal.units literal.encoding)⟩

namespace StringPieces

/-- The literals of a row, one after the other. -/
def pushAll (soFar : StringPieces) (literals : List ScannedString) : StringPieces :=
  literals.foldl (fun soFar literal => soFar.push literal.units literal.encoding) soFar

/-- The prefix is that of the encoding, or there is none. -/
def Agrees (encoding other : Encoding) : Prop := other = .plain ∨ other = encoding

theorem admits_of_agrees {soFar : StringPieces} {encoding other : Encoding}
    (before : Agrees encoding soFar.encoding) (agrees : Agrees encoding other) :
    soFar.admits other = true := by
  rcases before with before | before <;> rcases agrees with rfl | rfl <;> simp [admits, before]

theorem agrees_push {soFar : StringPieces} {encoding other : Encoding}
    (before : Agrees encoding soFar.encoding) (agrees : Agrees encoding other) (units : List Nat) :
    Agrees encoding (soFar.push units other).encoding := by
  simp only [push]
  split
  · exact agrees
  · exact before

/-- The pieces of one string in one encoding. -/
def ofPieces (encoding : Encoding) (pieces : List (List Nat)) : StringPieces :=
  { pieces := (pieces.map fun units => (units, encoding)).toArray
    encoding := if pieces.isEmpty then .plain else encoding }

variable (encoding : Encoding) (pieces : List (List Nat))

theorem admits_ofPieces : (ofPieces encoding pieces).admits encoding = true := by
  cases pieces <;> simp [admits, ofPieces]

theorem push_ofPieces (units : List Nat) :
    (ofPieces encoding pieces).push units encoding = ofPieces encoding (pieces ++ [units]) := by
  by_cases plain : encoding = .plain
  · subst plain
    simp [push, ofPieces]
  · simp only [push, admits_ofPieces, bne_iff_ne, ne_eq, plain, not_false_eq_true, Bool.and_true,
      if_true]
    simp [ofPieces]

/-- A piece as the one literal that it is written as. -/
def scannedPiece (units : List Nat) : ScannedString :=
  ⟨String.ofList (pieceCharacters encoding units), units, encoding⟩

theorem agrees_scannedPiece (pieces : List (List Nat)) :
    ∀ literal ∈ pieces.map (scannedPiece encoding), Agrees encoding literal.encoding := by
  intro literal inRow
  obtain ⟨piece, _, rfl⟩ := List.mem_map.mp inRow
  exact .inr rfl

theorem pushAll_ofPieces (more : List (List Nat)) :
    (ofPieces encoding pieces).pushAll (more.map (scannedPiece encoding)) =
      ofPieces encoding (pieces ++ more) := by
  induction more generalizing pieces with
  | nil =>
    rw [List.append_nil]
    rfl
  | cons units more ih =>
    have behind := ih (pieces ++ [units])
    rw [List.append_assoc, List.singleton_append, ← push_ofPieces] at behind
    exact behind

theorem pushAll_pieces (pieces : List (List Nat)) :
    pushAll {} (pieces.map (scannedPiece encoding)) = ofPieces encoding pieces :=
  pushAll_ofPieces encoding [] pieces

variable {encoding pieces}

theorem encoding_ofPieces (notEmpty : pieces ≠ []) :
    (ofPieces encoding pieces).encoding = encoding := by
  simp [ofPieces, notEmpty]

theorem units_ofPieces (notEmpty : pieces ≠ []) :
    (ofPieces encoding pieces).units = pieces.flatten := by
  have neverWidened : (encoding == .plain && !encoding.isNarrow) = false := by
    cases encoding <;> rfl
  have row : (ofPieces encoding pieces).pieces.toList =
      pieces.map fun units => (units, encoding) := by
    simp [ofPieces]
  simp only [units, encoding_ofPieces notEmpty, row, List.flatMap_map, neverWidened]
  exact List.flatMap_id'

end StringPieces

namespace Parse

/-- The next literal of a row of them. -/
def stringStep (soFar : StringPieces) : Parse (ForInStep StringPieces) := do
  let token ← peek
  if token.kind != .literal .string then return .done soFar
  else
    discard advance
    match token.value with
    | some (.string units encoding) =>
      if !soFar.admits encoding then complain token.location .mixedStringEncodings
      return .yield (soFar.push units encoding)
    | _ => return .yield soFar

variable {context : ParseContext} {state : ParseState} {encoding : Encoding} {piece : List Nat}
  {pieces : List (List Nat)}

theorem stringStep_done {soFar : StringPieces}
    (ends : (context.tokens.get state.position).kind ≠ .literal .string) :
    stringStep soFar context state = .ok (.done soFar) state := by
  simp [stringStep, ends]

theorem stringStep_literal {soFar : StringPieces} {literal : ScannedString}
    (isLiteral : (context.tokens.get state.position).word = literal.word)
    (admits : soFar.admits literal.encoding = true) :
    stringStep soFar context state =
      .ok (.yield (soFar.push literal.units literal.encoding))
        (state.movedTo (state.position + 1)) := by
  obtain ⟨kind, _, value⟩ := Token.word_eq_mk.mp isLiteral
  simp [stringStep, kind, value, admits]

theorem repeat_literals {soFar : StringPieces} {literals : List ScannedString}
    (before : StringPieces.Agrees encoding soFar.encoding)
    (agree : ∀ literal ∈ literals, StringPieces.Agrees encoding literal.encoding)
    (has : context.tokens.HasWordsAt state.position (literals.map ScannedString.word))
    (ends : (context.tokens.get (state.position + literals.length)).kind ≠ .literal .string) :
    repeatFrom stringStep soFar context state =
      .ok (soFar.pushAll literals) (state.movedTo (state.position + literals.length)) := by
  -- What has been read before is gathered in front.
  induction literals generalizing soFar state with
  | nil => exact repeatFrom_done (stringStep_done ends)
  | cons literal rest ih =>
    have length : state.position + (literal :: rest).length = state.position + 1 + rest.length := by
      rw [List.length_cons]
      omega
    rw [length] at ends ⊢
    obtain ⟨agrees, restAgree⟩ := List.forall_mem_cons.mp agree
    have isString : (context.tokens.get state.position).kind = .literal .string :=
      (Token.word_eq_mk.mp has.1).1
    have progress : (state.movedTo (state.position + 1)).remaining context <
        state.remaining context :=
      ParseState.remaining_movedTo_lt (by simp [isString]) (by omega)
    have stepped := stringStep_literal has.1 (StringPieces.admits_of_agrees before agrees)
    rw [repeatFrom_yield stepped progress,
      ih (StringPieces.agrees_push before agrees _) restAgree has.2 ends]
    rfl

theorem stringPieces_literals {literals : List ScannedString} (notEmpty : literals ≠ [])
    (agree : ∀ literal ∈ literals, StringPieces.Agrees encoding literal.encoding)
    (has : context.tokens.HasWordsAt state.position (literals.map ScannedString.word))
    (ends : (context.tokens.get (state.position + literals.length)).kind ≠ .literal .string) :
    stringPieces context state = .ok (.pushAll {} literals)
      (state.movedTo (state.position + literals.length)) := by
  have starts : (context.tokens.get state.position).kind = .literal .string := by
    obtain ⟨first, rest, rfl⟩ := List.exists_cons_of_ne_nil notEmpty
    exact (Token.word_eq_mk.mp has.1).1
  have gathered : repeatFrom stringStep {} context state = _ := repeat_literals (.inl rfl) agree has ends
  simp only [stringPieces, bind_apply, peek_apply, starts]
  exact gathered

theorem stringLiteral_literals {literals : List ScannedString} (notEmpty : literals ≠ [])
    (agree : ∀ literal ∈ literals, StringPieces.Agrees encoding literal.encoding)
    (has : context.tokens.HasWordsAt state.position (literals.map ScannedString.word))
    (ends : (context.tokens.get (state.position + literals.length)).kind ≠ .literal .string) :
    let read : StringPieces := .pushAll {} literals
    stringLiteral context state =
      .ok (.leaf .stringLiteral (context.tokens.get state.position).location
        (.literal (.string read.units read.encoding)))
        (state.movedTo (state.position + literals.length)) := by
  simp [stringLiteral, stringPieces_literals notEmpty agree has ends]

theorem stringPieces_pieces (notEmpty : pieces ≠ [])
    (has : context.tokens.HasWordsAt state.position (pieces.map fun piece => .string piece encoding))
    (ends : (context.tokens.get (state.position + pieces.length)).kind ≠ .literal .string) :
    stringPieces context state = .ok (.ofPieces encoding pieces)
      (state.movedTo (state.position + pieces.length)) := by
  have read : stringPieces context state = _ :=
    stringPieces_literals (by simpa using notEmpty) (StringPieces.agrees_scannedPiece encoding pieces)
      (by rw [List.map_map]; exact has) (by rwa [List.length_map])
  rwa [StringPieces.pushAll_pieces, List.length_map] at read

theorem stringText_pieces (notEmpty : pieces ≠ [])
    (has : context.tokens.HasWordsAt state.position (pieces.map fun piece => .string piece encoding))
    (ends : (context.tokens.get (state.position + pieces.length)).kind ≠ .literal .string) :
    stringText context state = .ok (encoding.decode pieces.flatten)
      (state.movedTo (state.position + pieces.length)) := by
  simp [stringText, stringPieces_pieces notEmpty has ends, StringPieces.units_ofPieces notEmpty,
    StringPieces.encoding_ofPieces notEmpty]

end Parse

namespace Productions

open Parse

variable {context : ParseContext} {state : ParseState} {encoding : Encoding}
  {pieces : List (List Nat)} {dialect : Dialect}

/-- A literal, or a row of them, is a whole expression at the end of a text. -/
theorem expression_of_literal {kind : LiteralKind} {node : Node} {stop : Nat}
    (isC : context.language = cLanguage dialect) {levels : Nat} (enough : 4 ≤ levels)
    (starts : (context.tokens.get state.position).kind = .literal kind)
    (read : ∀ deeper, primary deeper context state = .ok node (state.movedTo stop))
    (ends : (context.tokens.get stop).kind = .endOfFile) :
    (ofLevels levels).expression context state = .ok node (state.movedTo stop) := by
  obtain ⟨levels, rfl⟩ : ∃ fewer, levels = fewer + 4 := ⟨levels - 4, by omega⟩
  have endsAll : (context.tokens.get stop).kind.endsExpression = true := by
    rw [ends]
    rfl
  have noType : atParenthesizedType context state = .ok false state := by
    simp [atParenthesizedType_apply, starts]
  have operand : suffixed (ofLevels levels) context state =
      repeatFrom (addSuffix (ofLevels levels)) node context (state.movedTo stop) := by
    simp only [suffixed, bind_apply, read]
    rfl
  have unary := unary_of_suffixed (by rw [starts]; rfl) operand
    (TokenKind.extendsOperand_of_endsExpression endsAll)
  have conditional := conditional_of_cast isC (cast_of_unary noType unary)
    (TokenKind.binaryBelow_of_endsExpression endsAll 3)
    (TokenKind.notOperator_of_endsExpression endsAll .question)
  have assignment := assignment_of_conditional conditional fun operator isOperator =>
    absurd isOperator (TokenKind.notOperator_of_endsExpression endsAll operator)
  exact expression_of_single assignment (by simp [ends])

/-- A row of string literals of one encoding and without prefix is one string. -/
theorem expression_literals (isC : context.language = cLanguage dialect) {levels : Nat}
    (enough : 4 ≤ levels) {literals : List ScannedString} (notEmpty : literals ≠ [])
    (agree : ∀ literal ∈ literals, StringPieces.Agrees encoding literal.encoding)
    (has : context.tokens.HasWordsAt state.position (literals.map ScannedString.word))
    (ends : (context.tokens.get (state.position + literals.length)).kind = .endOfFile) :
    let read : StringPieces := .pushAll {} literals
    (ofLevels levels).expression context state =
      .ok (.leaf .stringLiteral (context.tokens.get state.position).location
        (.literal (.string read.units read.encoding)))
        (state.movedTo (state.position + literals.length)) := by
  intro read
  have starts : (context.tokens.get state.position).kind = .literal .string := by
    obtain ⟨first, rest, rfl⟩ := List.exists_cons_of_ne_nil notEmpty
    exact (Token.word_eq_mk.mp has.1).1
  have literal := stringLiteral_literals notEmpty agree has (by simp [ends])
  exact expression_of_literal isC enough starts (fun deeper => by simp [primary, starts, literal, read])
    ends

theorem expression_strings (isC : context.language = cLanguage dialect) {levels : Nat}
    (enough : 4 ≤ levels) (notEmpty : pieces ≠ [])
    (has : context.tokens.HasWordsAt state.position (pieces.map fun piece => .string piece encoding))
    (ends : (context.tokens.get (state.position + pieces.length)).kind = .endOfFile) :
    (ofLevels levels).expression context state =
      .ok (.leaf .stringLiteral (context.tokens.get state.position).location
        (.literal (.string pieces.flatten encoding)))
        (state.movedTo (state.position + pieces.length)) := by
  have read := expression_literals isC enough (by simpa using notEmpty)
    (StringPieces.agrees_scannedPiece encoding pieces) (by rw [List.map_map]; exact has)
    (by rwa [List.length_map])
  simpa only [StringPieces.pushAll_pieces, List.length_map, StringPieces.units_ofPieces notEmpty,
    StringPieces.encoding_ofPieces notEmpty] using read

end Productions

/-- The text of a string literal is scanned and read without a problem, and gives the units it was
written from, in one literal or in several. -/
theorem parseRule_stringSpelling (units : List Nat) (encoding : Encoding)
    (fits : ∀ unit ∈ units, unit ≤ encoding.maxUnit) (name : String) (diagnostics : Diagnostics) :
    ∃ tokens place,
      tokenize (cLanguage gnuC17) ⟨name, stringSpelling units encoding⟩ diagnostics =
        (tokens, diagnostics) ∧
      (cLanguage gnuC17).parseRule "expression" tokens diagnostics =
        (some (.leaf .stringLiteral place (.literal (.string units encoding))), diagnostics) := by
  let pieces := (cutAtSeams false units).1 :: (cutAtSeams false units).2
  have scans : ScansAs gnuC17 (stringSpelling units encoding).toList
      (pieces.map fun piece => .string piece encoding) [] := .stringSpelling fits []
  obtain ⟨tokens, tokenized, isWords⟩ := scans.tokenize name diagnostics
  have has : tokens.HasWordsAt (ParseState.first diagnostics).position
      (pieces.map fun piece => .string piece encoding) := isWords ▸ tokens.hasWordsAt_body
  have ends : (tokens.get ((ParseState.first diagnostics).position + pieces.length)).kind =
      .endOfFile := by
    have behind := TokenStream.get_behind_words isWords
    rw [List.length_map] at behind
    exact behind
  have enough : 4 ≤ maxNesting := by decide
  have isC : ((cLanguage gnuC17).context tokens).language = cLanguage gnuC17 := rfl
  have read := Productions.expression_strings isC enough (List.cons_ne_nil _ _) has ends
  have parsed := Language.parseRule_ok .expression read ends
  have whole : pieces.flatten = units := flatten_cutAtSeams false units
  rw [whole] at parsed
  exact ⟨tokens, _, tokenized, parsed⟩

/-- A wide character in front of a letter that would be a digit of it: two literals. -/
theorem parseRule_stringSpelling_seam :
    (∀ unit ∈ [0x1234, 0x61, 0x22, 0], unit ≤ Encoding.wide.maxUnit) ∧ ∃ tokens place,
      tokenize (cLanguage gnuC17) ⟨"<input>", stringSpelling [0x1234, 0x61, 0x22, 0] .wide⟩ .empty =
        (tokens, .empty) ∧
      (cLanguage gnuC17).parseRule "expression" tokens .empty =
        (some (.leaf .stringLiteral place (.literal (.string [0x1234, 0x61, 0x22, 0] .wide))),
          .empty) :=
  have fits : ∀ unit ∈ [0x1234, 0x61, 0x22, 0], unit ≤ Encoding.wide.maxUnit := by decide
  ⟨fits, parseRule_stringSpelling [0x1234, 0x61, 0x22, 0] .wide fits "<input>" .empty⟩

/-- The text of these units has a seam. -/
example : stringSpelling [0x1234, 0x61, 0x22, 0] .wide = "L\"\\x1234\" L\"a\\\"\\000\"" := by
  decide +kernel

end CFrontEnd
