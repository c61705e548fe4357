import CFrontEnd.Proofs.Characters.Values
import CFrontEnd.Proofs.Strings.RoundTrip

/-!
Character constants and their texts. A constant is written as one character or as one escape, so a value
that was packed from several bytes is lost: it is read back as the largest byte, with a problem.
-/

namespace CFrontEnd

/-! ## The text of a constant -/

/-- What stands between the quotes. -/
def characterBody (value : Nat) : List Char :=
  if value < 0x80 && ((Char.ofNat value).isAlphanum || Char.ofNat value == ' ') then
    [Char.ofNat value]
  else '\\' :: 'x' :: (hexDigits value).toList

theorem toList_characterSpelling (value : Nat) (encoding : Encoding) :
    (characterSpelling value encoding).toList =
      encoding.spelling.toList ++ '\'' :: (characterBody value ++ ['\'']) := by
  simp only [characterSpelling, characterBody, String.toList_append]
  split <;> simp [hexEscape]

/-- Letters, digits and blanks stand for themselves in a constant. -/
theorem plain_facts {value : Nat} (ascii : value < 0x80)
    (isPlain : ((Char.ofNat value).isAlphanum || Char.ofNat value == ' ') = true) :
    Char.ofNat value ≠ '\'' ∧ Char.ofNat value ≠ '\\' ∧ isLineEnd (Char.ofNat value) = false ∧
      (Char.ofNat value).toNat = value := by
  have decided : ∀ value : Fin 0x80,
      ((Char.ofNat value.val).isAlphanum || Char.ofNat value.val == ' ') = true →
        Char.ofNat value.val ≠ '\'' ∧ Char.ofNat value.val ≠ '\\' ∧
          isLineEnd (Char.ofNat value.val) = false ∧ (Char.ofNat value.val).toNat = value.val := by
    decide
  exact decided ⟨value, ascii⟩ isPlain

/-- The problems of the text between the quotes, which begins with character number `index`. -/
def bodyProblems (value : Nat) (encoding : Encoding) (index : Nat) : List (Nat × LexicalProblem) :=
  if value ≤ encoding.maxUnit then [] else [(index, .hexEscapeOutOfRange)]

theorem Encoding.ascii_le (encoding : Encoding) {value : Nat} (ascii : value < 0x80) :
    value ≤ encoding.maxUnit := by
  cases encoding <;> simp only [maxUnit] <;> omega

/-! ## Scanning -/

/-- A value that fits is read from the text between the quotes; a larger one is cut to the largest
unit. -/
theorem QuotedReading.read_characterBody (value : Nat) (encoding : Encoding) (index : Nat)
    (next : List Char) :
    read encoding '\'' '\\' index (characterBody value ++ '\'' :: next) =
      ⟨(characterBody value).length + 1, [min value encoding.maxUnit], true,
        bodyProblems value encoding index⟩ := by
  have closes (index : Nat) : read encoding '\'' '\\' index ('\'' :: next) = ⟨1, [], true, []⟩ := by
    rw [read.eq_def]
    rfl
  unfold characterBody
  -- Either the character stands for itself, or it is one hexadecimal escape that the quote ends.
  split
  · rename_i isPlain
    obtain ⟨ascii, isPlain⟩ := Bool.and_eq_true_iff.mp isPlain
    have ascii : value < 0x80 := of_decide_eq_true ascii
    obtain ⟨notQuote, notEscape, inLine, isValue⟩ := plain_facts ascii isPlain
    have fits := encoding.ascii_le ascii
    rw [List.singleton_append, read_itself notQuote notEscape inLine (isValue.symm ▸ ascii), closes,
      isValue, bodyProblems, if_pos fits, Nat.min_eq_left fits]
    rfl
  · have ends : ∀ character, ('\'' :: next).head? = some character → isHexDigit character = false := by
      intro character isNext
      obtain rfl := Option.some.inj isNext
      rfl
    have dropped : ('x' :: ((hexDigits value).toList ++ '\'' :: next)).drop
        (1 + (hexDigits value).toList.length) = '\'' :: next := by
      rw [Nat.add_comm, List.drop_succ_cons, List.drop_left]
    have escape : EscapeReading.read encoding _ = _ := EscapeReading.read_hexDigits value ends
    rw [EscapeReading.numeric_eq] at escape
    have problems : (((if value ≤ encoding.maxUnit then none else some .hexEscapeOutOfRange).map
        fun problem : LexicalProblem => (index, problem)).toList ++ []) =
          bodyProblems value encoding index := by
      rw [bodyProblems]
      split <;> rfl
    rw [List.cons_append, List.cons_append, read_sequence (by decide) escape, dropped, closes,
      ← problems]
    simp [withUnit]
    omega

namespace Segment

variable {dialect : Dialect}

theorem quotedAt?_of_read {encoding : Encoding} {before : Nat} {body : List Char}
    {reading : QuotedReading}
    (read : QuotedReading.read encoding '\'' '\\' (before + 1) body = reading) :
    quotedAt? (cLanguage dialect) encoding before ('\'' :: body) =
      some { kind := .token (.literal .character) (some (reading.asCharacter encoding).1),
             length := before + reading.length + 1,
             problems := (reading.asCharacter encoding).2 } := by
  rw [← read]
  rfl

theorem quotedAt?_characterBody (value : Nat) (encoding : Encoding) (before : Nat) :
    quotedAt? (cLanguage dialect) encoding before ('\'' :: (characterBody value ++ ['\''])) =
      some { kind := .token (.literal .character)
               (some (.character (min value encoding.maxUnit) encoding)),
             length := before + ((characterBody value).length + 1) + 1,
             problems := bodyProblems value encoding (before + 1) } := by
  have isValue : QuotedReading.characterValue encoding [min value encoding.maxUnit] =
      min value encoding.maxUnit :=
    QuotedReading.characterValue_single (Nat.min_le_right _ _)
  rw [quotedAt?_of_read (QuotedReading.read_characterBody value encoding (before + 1) [])]
  simp [QuotedReading.asCharacter, isValue]

end Segment

/-- The problems of a constant's text: its value may be too large for the one escape that it is written
as. -/
def rangeProblems (value : Nat) (encoding : Encoding) (name : String) : List Diagnostic :=
  if value ≤ encoding.maxUnit then []
  else
    [⟨.lexical, ⟨name, 1, encoding.spelling.length + 2, encoding.spelling.length + 1⟩,
      "hex escape sequence out of range"⟩]

theorem append_rangeProblems {value : Nat} {encoding : Encoding} (name : String)
    (diagnostics : Diagnostics) :
    diagnostics.append ⟨(rangeProblems value encoding name).toArray⟩ = diagnostics ↔
      value ≤ encoding.maxUnit := by
  rw [rangeProblems]
  split
  · rename_i fits
    simp [fits, Diagnostics.append]
  · rename_i large
    refine iff_of_false (fun same => ?_) large
    have sizes := congrArg (fun diagnostics => diagnostics.entries.size) same
    simp [Diagnostics.append] at sizes

/-- The escape stands behind the prefix and the quote. -/
theorem Reader.advance_prefix (encoding : Encoding) (name : String) (rest : List Char) (begins : Bool) :
    (Reader.advance (encoding.spelling.length + 1)
      ⟨encoding.spelling.toList ++ '\'' :: rest,
        { file := name, atLineStart := begins }⟩).place.location =
        ⟨name, 1, encoding.spelling.length + 2, encoding.spelling.length + 1⟩ := by
  cases encoding <;> rfl

theorem Scanner.problemsOf_character {value : Nat} {encoding : Encoding} {segment : Segment}
    (isProblems : segment.problems = bodyProblems value encoding (encoding.spelling.length + 1))
    (name : String) (diagnostics : Diagnostics) :
    (ofBuffer ⟨name, characterSpelling value encoding⟩ diagnostics).problemsOf segment =
      rangeProblems value encoding name := by
  rw [problemsOf, isProblems, bodyProblems, rangeProblems]
  split
  · rfl
  · have start : (ofBuffer ⟨name, characterSpelling value encoding⟩ diagnostics).segmentStart segment =
        ⟨encoding.spelling.toList ++ '\'' :: (characterBody value ++ ['\'']),
          { file := name, atLineStart := true && !segment.occupiesLine }⟩ := by
      rw [← toList_characterSpelling]
      rfl
    simp only [List.map_cons, List.map_nil, placed, start, Reader.advance_prefix]
    rfl

/-- A text that is one literal, with or without a prefix. -/
theorem tokenize_quoted {dialect : Dialect} {encoding : Encoding} {quote : Char} {body : List Char}
    {segment : Segment} {kind : TokenKind} {value : Option Literal} {text : String}
    (isQuote : quote = '"' ∨ quote = '\'')
    (isText : text.toList = encoding.spelling.toList ++ quote :: body)
    (found : Segment.quotedAt? (cLanguage dialect) encoding encoding.spelling.toList.length
      (quote :: body) = some segment)
    (whole : segment.length = text.toList.length) (isToken : segment.kind = .token kind value)
    (name : String) (diagnostics : Diagnostics) :
    ∃ tokens,
      tokenize (cLanguage dialect) ⟨name, text⟩ diagnostics = (tokens, diagnostics.append
        ⟨((Scanner.ofBuffer ⟨name, text⟩ diagnostics).problemsOf segment).toArray⟩) ∧
      tokens.body.toList.map Token.word = [⟨kind, text, value⟩] := by
  let buffer : SourceBuffer := ⟨name, text⟩
  obtain ⟨first, tail, opens, isFirst⟩ := Segment.exists_first_quoted dialect encoding isQuote
  have characters : buffer.characters = first :: (tail ++ body) := isText.trans (opens body)
  have isSegment : (Scanner.ofBuffer buffer diagnostics).segment (cLanguage dialect) first _ = _ :=
    isFirst _ _ found _
  have isLexeme : String.ofList (first :: (tail ++ body)) = text := by
    rw [← characters]
    exact String.ofList_toList
  rw [isText, opens] at whole
  obtain ⟨tokens, tokenized, isWord⟩ := tokenize_segment rfl characters isSegment whole isToken
  exact ⟨tokens, tokenized, isLexeme ▸ isWord⟩

/-- A constant's text is one constant again. -/
theorem tokenize_characterSpelling (dialect : Dialect) (value : Nat) (encoding : Encoding)
    (name : String) (diagnostics : Diagnostics) :
    ∃ tokens,
      tokenize (cLanguage dialect) ⟨name, characterSpelling value encoding⟩ diagnostics =
        (tokens, diagnostics.append ⟨(rangeProblems value encoding name).toArray⟩) ∧
      tokens.body.toList.map Token.word = [⟨.literal .character, characterSpelling value encoding,
        some (.character (min value encoding.maxUnit) encoding)⟩] := by
  have isText := toList_characterSpelling value encoding
  obtain ⟨tokens, tokenized, isWord⟩ := tokenize_quoted (.inr (Eq.refl '\'')) isText
    (Segment.quotedAt?_characterBody value encoding _) (by rw [isText]; simp; omega) rfl name diagnostics
  rw [Scanner.problemsOf_character (by rw [String.length_toList])] at tokenized
  exact ⟨tokens, tokenized, isWord⟩

/-- A text with two letters between the quotes, which are packed into one number. -/
theorem tokenize_twoLetters (dialect : Dialect) (name : String) :
    ∃ tokens, tokenize (cLanguage dialect) ⟨name, "'ab'"⟩ .empty = (tokens, .empty) ∧
      tokens.body.toList.map Token.word =
        [⟨.literal .character, "'ab'", some (.character 0x6162 .plain)⟩] := by
  have read : QuotedReading.read .plain '\'' '\\' 1 ['a', 'b', '\''] =
      ⟨3, [0x61, 0x62], true, []⟩ := by
    rw [QuotedReading.read_itself (by decide) (by decide) rfl (by decide),
      QuotedReading.read_itself (by decide) (by decide) rfl (by decide), QuotedReading.read.eq_def]
    rfl
  have isText : "'ab'".toList = Encoding.plain.spelling.toList ++ '\'' :: ['a', 'b', '\''] := rfl
  have found : Segment.quotedAt? (cLanguage dialect) .plain Encoding.plain.spelling.toList.length
      ('\'' :: ['a', 'b', '\'']) =
        some { kind := .token (.literal .character) (some (.character 0x6162 .plain)), length := 4 } :=
    Segment.quotedAt?_of_read read
  exact tokenize_quoted (.inr rfl) isText found rfl rfl name .empty

/-! ## Parsing -/

theorem parseRule_character {dialect : Dialect} {tokens : TokenStream} {lexeme : String} {value : Nat}
    {encoding : Encoding}
    (isWord : tokens.body.toList.map Token.word =
      [⟨.literal .character, lexeme, some (.character value encoding)⟩])
    (diagnostics : Diagnostics) :
    (cLanguage dialect).parseRule "expression" tokens diagnostics =
      (some (.leaf .characterLiteral (tokens.get 0).location (.literal (.character value encoding))),
        diagnostics) := by
  let context := (cLanguage dialect).context tokens
  let state := ParseState.first diagnostics
  have has : tokens.HasWordsAt state.position _ := isWord ▸ tokens.hasWordsAt_body
  obtain ⟨isCharacter, _, isValue⟩ := Token.word_eq_mk.mp has.1
  have ends : (tokens.get (0 + 1)).kind = .endOfFile := TokenStream.get_behind_words isWord
  have isLiteral : (tokens.get 0).literalOf .character = .character value encoding :=
    Token.literalOf_eq isValue rfl
  have read (deeper : Productions) : Productions.primary deeper context state = .ok
      (.leaf .characterLiteral (tokens.get 0).location (.literal (.character value encoding)))
      (state.movedTo (0 + 1)) := by
    have notString : LiteralKind.character ≠ .string := by decide
    have literal : Productions.primary deeper context state = _ :=
      Productions.primary_literal isCharacter notString
    rw [literal, ← isLiteral]
    rfl
  have enough : 4 ≤ maxNesting := by decide
  have isC : context.language = cLanguage dialect := rfl
  have expression := Productions.expression_of_literal isC enough isCharacter read ends
  exact Language.parseRule_ok .expression expression ends

/-- A text that is one character constant is parsed as its value. The text written from that is one
constant of the same encoding, and of the same value if the value fits the one unit that is written: of
an encoding with wider units it always does. A larger value comes back as the largest byte, with a
problem at the escape. -/
theorem parseRule_characterSpelling (dialect : Dialect) (buffer : SourceBuffer) (tokens : TokenStream)
    (token : Token) (diagnostics : Diagnostics)
    (tokenized : tokenize (cLanguage dialect) buffer diagnostics = (tokens, diagnostics))
    (single : tokens.body = #[token]) (isCharacter : token.kind = .literal .character) :
    ∃ place value encoding, (encoding.isNarrow = false → value ≤ encoding.maxUnit) ∧
      let node : Node := .leaf .characterLiteral place (.literal (.character value encoding))
      (cLanguage dialect).parseRule "expression" tokens diagnostics = (some node, diagnostics) ∧
      ∀ name, ∃ other spot,
        let after := diagnostics.append ⟨(rangeProblems value encoding name).toArray⟩
        tokenize (cLanguage dialect) ⟨name, node.expressionText⟩ diagnostics = (other, after) ∧
        (cLanguage dialect).parseRule "expression" other after =
          (some (.leaf .characterLiteral spot
            (.literal (.character (min value encoding.maxUnit) encoding))), after) ∧
        (after = diagnostics ↔ value ≤ encoding.maxUnit) := by
  have inText : token ∈ tokens.body := by simp [single]
  obtain ⟨first, rest, segment, isFoundIn⟩ := Token.exists_isFoundIn tokenized inText
  obtain ⟨value, encoding, isValue, fits⟩ := isFoundIn.exists_character isCharacter
  have isWord : tokens.body.toList.map Token.word =
      [⟨.literal .character, token.lexeme, some (.character value encoding)⟩] := by
    simp [single, Token.word, isCharacter, isValue]
  refine ⟨_, value, encoding, fits, parseRule_character isWord diagnostics, fun name => ?_⟩
  obtain ⟨other, again, otherWord⟩ :=
    tokenize_characterSpelling dialect value encoding name diagnostics
  exact ⟨other, _, again, parseRule_character otherWord _, append_rangeProblems name diagnostics⟩

theorem parseRule_characterSpelling_letters :
    ∃ tokens token,
      tokenize (cLanguage gnuC17) ⟨"<input>", "'ab'"⟩ .empty = (tokens, .empty) ∧
      tokens.body = #[token] ∧ token.kind = .literal .character ∧
      ∃ place value encoding, (encoding.isNarrow = false → value ≤ encoding.maxUnit) ∧
        let node : Node := .leaf .characterLiteral place (.literal (.character value encoding))
        (cLanguage gnuC17).parseRule "expression" tokens .empty = (some node, .empty) ∧
        ∀ name, ∃ other spot,
          let after := Diagnostics.empty.append ⟨(rangeProblems value encoding name).toArray⟩
          tokenize (cLanguage gnuC17) ⟨name, node.expressionText⟩ .empty = (other, after) ∧
          (cLanguage gnuC17).parseRule "expression" other after =
            (some (.leaf .characterLiteral spot
              (.literal (.character (min value encoding.maxUnit) encoding))), after) ∧
          (after = .empty ↔ value ≤ encoding.maxUnit) := by
  obtain ⟨tokens, tokenized, isWord⟩ := tokenize_twoLetters gnuC17 "<input>"
  obtain ⟨token, single⟩ : ∃ token, tokens.body.toList = [token] := by
    have length := congrArg List.length isWord
    rw [List.length_map] at length
    exact List.length_eq_one_iff.mp length
  have isBody : tokens.body = #[token] := Array.toList_inj.mp single
  have isCharacter : token.kind = .literal .character := by
    rw [single] at isWord
    exact (Token.word_eq_mk.mp (List.singleton_inj.mp isWord)).1
  exact ⟨tokens, token, tokenized, isBody, isCharacter,
    parseRule_characterSpelling gnuC17 ⟨"<input>", "'ab'"⟩ tokens token .empty tokenized isBody
      isCharacter⟩

/-- Two letters are parsed without a problem, and the text written from them is not. -/
theorem not_parseRule_twoLetters :
    ∃ tokens place, let node : Node := .leaf .characterLiteral place (.literal (.character 0x6162 .plain))
      tokenize (cLanguage gnuC17) ⟨"<input>", "'ab'"⟩ .empty = (tokens, .empty) ∧
      (cLanguage gnuC17).parseRule "expression" tokens .empty = (some node, .empty) ∧
      ¬ ∃ other, tokenize (cLanguage gnuC17) ⟨"<input>", node.expressionText⟩ .empty =
        (other, .empty) := by
  obtain ⟨tokens, tokenized, isWord⟩ := tokenize_twoLetters gnuC17 "<input>"
  refine ⟨tokens, _, tokenized, parseRule_character isWord .empty, ?_⟩
  rintro ⟨other, clean⟩
  obtain ⟨_, again, _⟩ := tokenize_characterSpelling gnuC17 0x6162 .plain "<input>" .empty
  have sameText := clean.symm.trans again
  have fits := (append_rangeProblems "<input>" .empty).mp (congrArg Prod.snd sameText).symm
  exact absurd fits (by decide)

end CFrontEnd
