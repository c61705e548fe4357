import CFrontEnd.Proofs.Literals.Completeness
import CFrontEnd.Proofs.Literals.Widening

/-!
A literal without prefix beside one with a prefix for a wide encoding. The two are one string in that
encoding; its units are those that the first one would have behind the prefix, unless a number in it is no
ASCII character.
-/

namespace CFrontEnd

variable {dialect : Dialect} {encoding : Encoding} {items : List LiteralItem}

/-! ## Scanning -/

theorem problem?_of_itemProblems {index : Nat} (clean : itemProblems encoding index items = []) :
    ∀ item ∈ items, item.problem? encoding = none := by
  induction items generalizing index with
  | nil => exact fun _ inNone => absurd inNone List.not_mem_nil
  | cons item rest ih =>
    obtain ⟨noProblem, restClean⟩ := List.append_eq_nil_iff.mp clean
    exact List.forall_mem_cons.mpr ⟨by simpa using noProblem, ih restClean⟩

theorem ScansAs.twoLiterals {others : List LiteralItem} {other : Encoding}
    (areItems : AreItems '"' items) (clean : ∀ item ∈ items, item.problem? encoding = none)
    (areOthers : AreItems '"' others) (othersClean : ∀ item ∈ others, item.problem? other = none) :
    ScansAs dialect
      (literalText encoding '"' (itemsText items) ++ " " ++
        literalText other '"' (itemsText others)).toList
      ([scannedItems encoding items, scannedItems other others].map ScannedString.word) [] := by
  rw [String.toList_append, String.toList_append, List.append_assoc]
  exact (ScansAs.literalItems areItems clean _).append (.space (.literalItems areOthers othersClean []))

theorem Segment.tokenAt?_quote {rest : List Char} :
    tokenAt? (cLanguage dialect) '"' rest = quotedAt? (cLanguage dialect) .plain 0 ('"' :: rest) := by
  have noNumber : numberAt? (cLanguage dialect) '"' rest = none :=
    numberAt?_eq_none rfl fun isPoint => absurd isPoint (by decide)
  have found : (quotedAt? (cLanguage dialect) .plain 0 ('"' :: rest)).isSome = true := rfl
  obtain ⟨segment, isSegment⟩ := Option.isSome_iff_exists.mp found
  simp [tokenAt?, noNumber, isSegment]

/-- A literal without problems has items up to its second quote, and none of them has a problem. -/
theorem Segment.exists_items_of_quotedAt? {before : Nat} {rest : List Char} {segment : Segment}
    (found : quotedAt? (cLanguage dialect) encoding before ('"' :: rest) = some segment)
    (noProblems : segment.problems = []) :
    ∃ items next, AreItems '"' items ∧ rest = itemsText items ++ '"' :: next ∧
      segment.length = before + ((itemsText items).length + 1) + 1 ∧
      ∀ item ∈ items, item.problem? encoding = none := by
  have isSegment := Option.some.inj found
  subst isSegment
  have isEscape : (cLanguage dialect).marks.escape = '\\' := rfl
  obtain ⟨readClean, isClosed⟩ := List.append_eq_nil_iff.mp noProblems
  rw [isEscape] at readClean isClosed
  have closed : (QuotedReading.read encoding '"' '\\' (before + 1) rest).terminated = true := by
    by_contra isOpen
    rw [if_neg isOpen] at isClosed
    cases isClosed
  obtain ⟨items, next, areItems, isRest, length⟩ :=
    QuotedReading.exists_items rfl closed readClean
  have read := QuotedReading.read_items encoding areItems (.inl rfl) (before + 1) next
  refine ⟨items, next, areItems, isRest, ?_, ?_⟩
  · rw [← length]
    rfl
  · rw [isRest, read] at readClean
    exact problem?_of_itemProblems readClean

/-- So a text without problems that is one literal without prefix has nothing but items between its
quotes. -/
theorem exists_items_of_tokenize {body : List Char} {name : String} {diagnostics : Diagnostics}
    {tokens : TokenStream} {value : Option Literal}
    (tokenized : tokenize (cLanguage dialect) ⟨name, literalText .plain '"' body⟩ diagnostics =
      (tokens, diagnostics))
    (single : tokens.body.toList.map Token.word =
      [⟨.literal .string, literalText .plain '"' body, value⟩]) :
    ∃ items, AreItems '"' items ∧ itemsText items = body ∧
      ∀ item ∈ items, item.problem? .plain = none := by
  obtain ⟨token, isBody, isWord⟩ := List.map_eq_singleton_iff.mp single
  have inText : token ∈ tokens.body := by simp [← Array.mem_toList_iff, isBody]
  have lexeme := (Token.word_eq_mk.mp isWord).2.1
  obtain ⟨first, rest, segment, isFoundIn, noProblems⟩ :=
    Token.exists_isFoundIn_clean tokenized inText
  have whole : (first :: rest).take segment.length = '"' :: (body ++ ['"']) := by
    rw [isFoundIn.lexeme, literalText, String.ofList_inj] at lexeme
    exact lexeme
  obtain ⟨count, length⟩ : ∃ count, segment.length = count + 1 :=
    ⟨segment.length - 1, by have := segment.length_pos; omega⟩
  rw [length, List.take_succ_cons] at whole
  obtain ⟨rfl, isRest⟩ := List.cons.inj whole
  -- Behind a quote the token is a quoted one, and what it holds can be cut into items.
  have found := isFoundIn.found
  rw [Segment.tokenAt?_quote] at found
  obtain ⟨items, next, areItems, isItems, isLength, clean⟩ :=
    Segment.exists_items_of_quotedAt? found noProblems
  refine ⟨items, areItems, ?_, clean⟩
  have isCount : count = (itemsText items ++ ['"']).length := by
    rw [List.length_append, List.length_singleton]
    omega
  have joined : itemsText items ++ '"' :: next = itemsText items ++ ['"'] ++ next := by simp
  rw [isItems, joined, isCount, List.take_left] at isRest
  exact List.append_cancel_right isRest

/-! ## Parsing -/

theorem parseRule_literals {text : String} {literals : List ScannedString}
    (scans : ScansAs dialect text.toList (literals.map ScannedString.word) [])
    (notEmpty : literals ≠ [])
    (agree : ∀ literal ∈ literals, StringPieces.Agrees encoding literal.encoding)
    (name : String) (diagnostics : Diagnostics) :
    ∃ tokens place,
      tokenize (cLanguage dialect) ⟨name, text⟩ diagnostics = (tokens, diagnostics) ∧
      (cLanguage dialect).parseRule "expression" tokens diagnostics =
        (some (.leaf .stringLiteral place (.literal (.string
          (StringPieces.pushAll {} literals).units (StringPieces.pushAll {} literals).encoding))),
          diagnostics) := by
  obtain ⟨tokens, tokenized, areWords⟩ := scans.tokenize name diagnostics
  let context := (cLanguage dialect).context tokens
  let state := ParseState.first diagnostics
  have has : tokens.HasWordsAt state.position (literals.map ScannedString.word) :=
    areWords ▸ tokens.hasWordsAt_body
  have ends : (tokens.get (state.position + literals.length)).kind = .endOfFile := by
    have behind := TokenStream.get_behind_words areWords
    rw [List.length_map] at behind
    exact behind
  have isC : context.language = cLanguage dialect := rfl
  have enough : 4 ≤ maxNesting := by decide
  have expression := Productions.expression_literals isC enough notEmpty agree has ends
  exact ⟨tokens, _, tokenized, Language.parseRule_ok .expression expression ends⟩

/-- A literal without prefix beside an empty one is encoded again. -/
theorem pushAll_besideEmpty (isWide : encoding.isNarrow = false) {row : List ScannedString}
    (isRow : row = [scannedItems .plain items, scannedItems encoding []] ∨
      row = [scannedItems encoding [], scannedItems .plain items]) :
    let read : StringPieces := .pushAll {} row
    read.units = StringPieces.widen encoding (itemsUnits .plain items) ∧ read.encoding = encoding := by
  rcases isRow with rfl | rfl <;> cases encoding with
  | plain | utf8 => cases isWide
  | _ => simp [StringPieces.pushAll, StringPieces.push, StringPieces.admits, StringPieces.units,
      scannedItems, Encoding.isNarrow]

theorem parseRule_besideEmpty (dialect : Dialect) (isWide : encoding.isNarrow = false)
    (areItems : AreItems '"' items) (clean : ∀ item ∈ items, item.problem? .plain = none)
    {text : String}
    (isText : text = literalText .plain '"' (itemsText items) ++ " " ++ literalText encoding '"' [] ∨
      text = literalText encoding '"' [] ++ " " ++ literalText .plain '"' (itemsText items))
    (name : String) (diagnostics : Diagnostics) :
    ∃ tokens place,
      tokenize (cLanguage dialect) ⟨name, text⟩ diagnostics = (tokens, diagnostics) ∧
      (cLanguage dialect).parseRule "expression" tokens diagnostics =
        (some (.leaf .stringLiteral place
          (.literal (.string (StringPieces.widen encoding (itemsUnits .plain items)) encoding))),
          diagnostics) := by
  have noneClean : ∀ item ∈ ([] : List LiteralItem), item.problem? encoding = none :=
    fun _ inNone => absurd inNone List.not_mem_nil
  have inFront : ScansAs dialect _ _ [] := .twoLiterals areItems clean AreItems.nil noneClean
  have behind : ScansAs dialect _ _ [] := .twoLiterals AreItems.nil noneClean areItems clean
  rw [itemsText_nil] at inFront behind
  -- In either order the row is the one literal that has units and an empty one with the prefix.
  obtain ⟨row, scans, isRow⟩ : ∃ row : List ScannedString,
      ScansAs dialect text.toList (row.map ScannedString.word) [] ∧
        (row = [scannedItems .plain items, scannedItems encoding []] ∨
          row = [scannedItems encoding [], scannedItems .plain items]) := by
    rcases isText with rfl | rfl
    · exact ⟨_, inFront, .inl rfl⟩
    · exact ⟨_, behind, .inr rfl⟩
  obtain ⟨isUnits, isEncoding⟩ := pushAll_besideEmpty isWide isRow
  have notEmpty : row ≠ [] := by rcases isRow with rfl | rfl <;> exact List.cons_ne_nil _ _
  have agree : ∀ literal ∈ row, StringPieces.Agrees encoding literal.encoding := by
    rcases isRow with rfl | rfl <;> simp [StringPieces.Agrees, scannedItems]
  have parsed := parseRule_literals scans notEmpty agree name diagnostics
  rw [isUnits, isEncoding] at parsed
  exact parsed

/-- A text that is one literal without prefix, and without a problem, has none behind the prefix of a wide
encoding either. Beside an empty literal with that prefix it is parsed as one string of the encoding. The
bytes are read as characters for that, and so the units are those that the literal has behind the prefix if
and only if each number in it is an ASCII character. -/
theorem parseRule_widened (dialect : Dialect) (encoding : Encoding) (isWide : encoding.isNarrow = false)
    (body : List Char) (name : String) (diagnostics : Diagnostics) (tokens : TokenStream)
    (value : Option Literal)
    (tokenized : tokenize (cLanguage dialect) ⟨name, literalText .plain '"' body⟩ diagnostics =
      (tokens, diagnostics))
    (single : tokens.body.toList.map Token.word =
      [⟨.literal .string, literalText .plain '"' body, value⟩]) :
    ∃ items, AreItems '"' items ∧ itemsText items = body ∧
      let units := itemsUnits encoding items
      let widened := StringPieces.widen encoding (itemsUnits .plain items)
      (∃ tokens,
        tokenize (cLanguage dialect) ⟨name, literalText encoding '"' body⟩ diagnostics =
          (tokens, diagnostics) ∧
        tokens.body.toList.map Token.word =
          [⟨.literal .string, literalText encoding '"' body, some (.string units encoding)⟩]) ∧
      (∀ text, text = literalText .plain '"' body ++ " " ++ literalText encoding '"' [] ∨
          text = literalText encoding '"' [] ++ " " ++ literalText .plain '"' body →
        ∃ tokens place,
          tokenize (cLanguage dialect) ⟨name, text⟩ diagnostics = (tokens, diagnostics) ∧
          (cLanguage dialect).parseRule "expression" tokens diagnostics =
            (some (.leaf .stringLiteral place (.literal (.string widened encoding))), diagnostics)) ∧
      (widened = units ↔ ∀ item ∈ items, ∀ value, item.number? = some value → value < 0x80) := by
  obtain ⟨items, areItems, rfl, clean⟩ := exists_items_of_tokenize tokenized single
  refine ⟨items, areItems, rfl, ?_, fun text isText => ?_, ?_⟩
  · exact (ScansAs.literalItems areItems (fun item inItems =>
      LiteralItem.problem?_of_plain (clean item inItems) encoding) []).tokenize name diagnostics
  · exact parseRule_besideEmpty dialect isWide areItems clean isText name diagnostics
  · rw [StringPieces.widen_itemsUnits encoding areItems]
    exact widenedUnits_eq_iff isWide areItems.isItem fun item inItems value isNumber =>
      LiteralItem.number?_le (clean item inItems) isNumber

theorem areItems_byte {first second : Char} (isFirst : isHexDigit first = true)
    (isSecond : isHexDigit second = true) {rest : List LiteralItem}
    (ends : ∀ character, (itemsText rest).head? = some character → isHexDigit character = false)
    (areItems : AreItems '"' rest) : AreItems '"' (.hexadecimal [first, second] :: rest) :=
  have areDigits : ∀ digit ∈ [first, second], isHexDigit digit = true :=
    List.forall_mem_cons.mpr ⟨isFirst, List.forall_mem_singleton.mpr isSecond⟩
  .cons (.hexadecimal (List.cons_ne_nil _ _) areDigits) ends areItems

/-- The two bytes of a letter, as numbers, and a character that has two units. -/
theorem parseRule_widened_pair :
    let body := ['\\', 'x', 'C', '3', '\\', 'x', 'A', '9', '😀']
    Encoding.utf16.isNarrow = false ∧ ∃ tokens value,
      tokenize (cLanguage gnuC17) ⟨"<input>", literalText .plain '"' body⟩ .empty = (tokens, .empty) ∧
      tokens.body.toList.map Token.word = [⟨.literal .string, literalText .plain '"' body, value⟩] ∧
      ∃ items, AreItems '"' items ∧ itemsText items = body ∧
        let units := itemsUnits .utf16 items
        let widened := StringPieces.widen .utf16 (itemsUnits .plain items)
        (∃ tokens,
          tokenize (cLanguage gnuC17) ⟨"<input>", literalText .utf16 '"' body⟩ .empty =
            (tokens, .empty) ∧
          tokens.body.toList.map Token.word =
            [⟨.literal .string, literalText .utf16 '"' body, some (.string units .utf16)⟩]) ∧
        (∀ text, text = literalText .plain '"' body ++ " " ++ literalText .utf16 '"' [] ∨
            text = literalText .utf16 '"' [] ++ " " ++ literalText .plain '"' body →
          ∃ tokens place,
            tokenize (cLanguage gnuC17) ⟨"<input>", text⟩ .empty = (tokens, .empty) ∧
            (cLanguage gnuC17).parseRule "expression" tokens .empty =
              (some (.leaf .stringLiteral place (.literal (.string widened .utf16))), .empty)) ∧
        (widened = units ↔ ∀ item ∈ items, ∀ value, item.number? = some value → value < 0x80) := by
  intro body
  have isWide : Encoding.utf16.isNarrow = false := rfl
  have areRaw : AreItems '"' [.raw '😀'] :=
    .cons (.raw (by decide) (by decide) (by decide)) trivial .nil
  have areItems : AreItems '"' [.hexadecimal ['C', '3'], .hexadecimal ['A', '9'], .raw '😀'] :=
    areItems_byte rfl rfl (by simp [LiteralItem.text, isHexDigit, hexDigitValue?])
      (areItems_byte rfl rfl (by simp [LiteralItem.text]; decide) areRaw)
  have scans : ScansAs gnuC17 (literalText .plain '"' body).toList _ [] :=
    .literalItems areItems (by decide) []
  obtain ⟨tokens, tokenized, single⟩ := scans.tokenize "<input>" .empty
  exact ⟨isWide, tokens, _, tokenized, single,
    parseRule_widened gnuC17 .utf16 isWide body "<input>" .empty tokens _ tokenized single⟩

/-- One byte that begins no character: behind the prefix it is a unit, beside it is lost. -/
theorem not_parseRule_widened_byte :
    (∃ tokens, tokenize (cLanguage gnuC17) ⟨"<input>", "\"\\xFF\""⟩ .empty = (tokens, .empty) ∧
      tokens.body.toList.map Token.word =
        [⟨.literal .string, "\"\\xFF\"", some (.string [0xFF] .plain)⟩]) ∧
    (∃ tokens, tokenize (cLanguage gnuC17) ⟨"<input>", "L\"\\xFF\""⟩ .empty = (tokens, .empty) ∧
      tokens.body.toList.map Token.word =
        [⟨.literal .string, "L\"\\xFF\"", some (.string [0xFF] .wide)⟩]) ∧
    ∃ tokens place,
      tokenize (cLanguage gnuC17) ⟨"<input>", "\"\\xFF\" L\"\""⟩ .empty = (tokens, .empty) ∧
      (cLanguage gnuC17).parseRule "expression" tokens .empty =
        (some (.leaf .stringLiteral place (.literal (.string [0xFFFD] .wide))), .empty) := by
  have areItems : AreItems '"' [.hexadecimal ['F', 'F']] :=
    areItems_byte rfl rfl (fun _ isNext => by cases isNext) .nil
  have clean : ∀ item ∈ [.hexadecimal ['F', 'F']], LiteralItem.problem? .plain item = none := by
    decide
  have wideClean : ∀ item ∈ [.hexadecimal ['F', 'F']], LiteralItem.problem? .wide item = none := by
    decide
  have narrow : ScansAs gnuC17 _ _ [] := .literalItems areItems clean []
  have wide : ScansAs gnuC17 _ _ [] := .literalItems areItems wideClean []
  have widened : StringPieces.widen .wide (itemsUnits .plain [.hexadecimal ['F', 'F']]) = [0xFFFD] := by
    have isByte : LiteralItem.units .plain (.hexadecimal ['F', 'F']) = [0xFF] := by decide
    have replaced : decodeCharacter 0xFF [] = (0, replacementCharacter) := by decide
    rw [StringPieces.widen_itemsUnits .wide areItems, widenedUnits_byte isByte, itemsUnits_nil]
    simp only [replaced, List.drop_nil, decodeUtf8, List.flatMap_nil, List.append_nil]
    rfl
  refine ⟨narrow.tokenize "<input>" .empty, wide.tokenize "<input>" .empty, ?_⟩
  have isText : "\"\\xFF\" L\"\"" = literalText .plain '"' (itemsText [.hexadecimal ['F', 'F']]) ++
      " " ++ literalText .wide '"' [] := by
    decide
  have parsed := parseRule_besideEmpty gnuC17 (rfl : Encoding.wide.isNarrow = false) areItems clean
    (.inl isText) "<input>" .empty
  rw [widened] at parsed
  exact parsed

end CFrontEnd
