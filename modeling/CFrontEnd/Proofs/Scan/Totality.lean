import CFrontEnd.Proofs.Scan.Composition

/-!
Scanning needs little of the tables that it reads. With any tables that meet `Language.Scannable` each
rule of the scanner takes at least one character, and the tokens of a text stand in it in their order,
each where its own bytes are.
-/

namespace CFrontEnd

/-! ## Tables -/

/-- Symbols are not empty, and what begins a word, a number or a comment also goes on with it. -/
structure Language.Scannable (language : Language) : Prop where
  operators : ∀ entry ∈ language.operators, entry.symbol ≠ ""
  punctuators : ∀ entry ∈ language.punctuators, entry.symbol ≠ ""
  lineOpener : ∀ opener ∈ language.comments.line,
    ∃ first rest, opener.toList = first :: rest ∧ isLineEnd first = false
  blockOpener : ∀ comment ∈ language.comments.block, comment.1 ≠ ""
  words : ∀ character, language.classes.startsIdentifier character = true →
    language.classes.continuesIdentifier character = true
  digits : ∀ character, language.classes.isDigit character = true → character.isDigit = true
  fraction : language.numbers.fraction = true

/-- Every rule that applies to a text finds a segment at its beginning, and no segment is empty. A word
is the whole run of the characters that it may go on with. -/
structure Language.GoesForward (language : Language) (first : Char) (rest : List Char) : Prop where
  number : Segment.startsNumber language first rest = true →
    (Segment.numberAt? language first rest).isSome
  word : language.classes.startsIdentifier first = true →
    (first :: rest).takeWhile language.classes.continuesIdentifier =
      first :: rest.takeWhile language.classes.continuesIdentifier
  operator : ∀ entry ∈ language.operators, entry.symbol.toList <+: first :: rest →
    (Segment.symbolAt? language first rest).isSome
  punctuator : ∀ entry ∈ language.punctuators, entry.symbol.toList <+: first :: rest →
    (Segment.symbolAt? language first rest).isSome
  lineComment : ∀ opener ∈ language.comments.line, opener.toList <+: first :: rest →
    (Segment.lineCommentAt? language first rest).isSome
  blockComment : ∀ comment ∈ language.comments.block, comment.1.toList <+: first :: rest →
    (Segment.blockCommentAt? language first rest).isSome

namespace Segment

variable {language : Language} {first : Char} {rest input : List Char} {kind : TokenKind}
  {symbol : String} {segment : Segment}

theorem symbolKind?_isSome
    (found : (language.matchOperator? input).isSome ∨ (language.matchPunctuator? input).isSome) :
    (symbolKind? language input).isSome := by
  rw [Option.isSome_iff_ne_none]
  intro missing
  obtain ⟨noOperator, noPunctuator⟩ := symbolKind?_eq_none.mp missing
  simp [noOperator, noPunctuator] at found

theorem symbolAt?_isSome
    (found : (language.matchOperator? (first :: rest)).isSome ∨
      (language.matchPunctuator? (first :: rest)).isSome) :
    (symbolAt? language first rest).isSome := by
  obtain ⟨⟨kind, symbol⟩, isSymbol⟩ := Option.isSome_iff_exists.mp (symbolKind?_isSome found)
  simp [symbolAt?, isSymbol, length_pos_of_beginsWith (symbolKind?_begins isSymbol).1]

end Segment

namespace Language.Scannable

variable {language : Language} {first : Char} {rest : List Char}

theorem lineComment (scannable : language.Scannable) (opener : String)
    (isOpener : opener ∈ language.comments.line) (ahead : opener.toList <+: first :: rest) :
    (Segment.lineCommentAt? language first rest).isSome := by
  obtain ⟨start, others, isText, inLine⟩ := scannable.lineOpener opener isOpener
  have begins : beginsWith opener (first :: rest) = true := by
    refine beginsWith_iff.mpr ⟨?_, ahead⟩
    rintro rfl
    simp at isText
  rw [isText] at ahead
  obtain ⟨rfl, _⟩ := List.cons_prefix_cons.mp ahead
  simp [Segment.lineCommentAt?, Option.mem_def.mp isOpener, begins, inLine]

theorem blockComment (scannable : language.Scannable) (comment : String × String)
    (isComment : comment ∈ language.comments.block) (ahead : comment.1.toList <+: first :: rest) :
    (Segment.blockCommentAt? language first rest).isSome := by
  obtain ⟨opener, closer⟩ := comment
  have begins : beginsWith opener (first :: rest) = true :=
    beginsWith_iff.mpr ⟨scannable.blockOpener _ isComment, ahead⟩
  have whole (inside : Nat) : 0 < opener.length + inside :=
    Nat.add_pos_left (length_pos_of_beginsWith begins) inside
  simp [Segment.blockCommentAt?, Option.mem_def.mp isComment, begins, whole]

theorem goesForward (scannable : language.Scannable) (first : Char) (rest : List Char) :
    language.GoesForward first rest where
  number starts := by
    obtain ⟨_, _, _, isNumber⟩ :=
      Segment.numberAt?_of_starts scannable.fraction scannable.digits starts
    rw [isNumber]
    rfl
  word starts := List.takeWhile_cons_of_pos (scannable.words first starts)
  operator entry isEntry ahead := by
    refine Segment.symbolAt?_isSome (.inl ?_)
    rw [matchOperator?, List.find?_isSome]
    exact ⟨entry, isEntry, beginsWith_iff.mpr ⟨scannable.operators entry isEntry, ahead⟩⟩
  punctuator entry isEntry ahead := by
    refine Segment.symbolAt?_isSome (.inr ?_)
    rw [matchPunctuator?, List.find?_isSome]
    exact ⟨entry, isEntry, beginsWith_iff.mpr ⟨scannable.punctuators entry isEntry, ahead⟩⟩
  lineComment := scannable.lineComment
  blockComment := scannable.blockComment

end Language.Scannable

/-! ## Tokens in their text -/

/-- The tokens are pieces of the text that begins at `offset`, with other pieces between them. -/
inductive Tiles : Nat → List Char → List Token → Prop
  | nil (offset : Nat) : Tiles offset [] []
  | gap {offset : Nat} {skipped rest : List Char} {tokens : List Token} :
      Tiles (offset + byteLength skipped) rest tokens → Tiles offset (skipped ++ rest) tokens
  | token {token : Token} {offset : Nat} {lexeme rest : List Char} {tokens : List Token} :
      token.kind ≠ .endOfFile → lexeme ≠ [] → token.lexeme = String.ofList lexeme →
      token.location.offset = offset → Tiles (offset + byteLength lexeme) rest tokens →
      Tiles offset (lexeme ++ rest) (token :: tokens)

/-- The token is the part of the text that its offset says, in whole characters. -/
structure Token.LiesIn (text : String) (token : Token) : Prop where
  notEmpty : token.lexeme ≠ ""
  slice : ∃ before after, text = before ++ token.lexeme ++ after ∧
    before.utf8ByteSize = token.location.offset

def Token.Precedes (first second : Token) : Prop :=
  first.location.offset + first.lexeme.utf8ByteSize ≤ second.location.offset

theorem utf8ByteSize_ofList (characters : List Char) :
    (String.ofList characters).utf8ByteSize = byteLength characters := by
  induction characters with
  | nil => rfl
  | cons first rest ih =>
    rw [byteLength, ← ih]
    simp

theorem byteLength_toList (text : String) : byteLength text.toList = text.utf8ByteSize := by
  rw [← utf8ByteSize_ofList, String.ofList_toList]

namespace Tiles

variable {offset : Nat} {text : List Char} {tokens : List Token}

theorem notEnd (tiles : Tiles offset text tokens) : ∀ token ∈ tokens, token.kind ≠ .endOfFile := by
  induction tiles with
  | nil => simp
  | gap _ ih => exact ih
  | token notEnd _ _ _ _ ih => exact List.forall_mem_cons.mpr ⟨notEnd, ih⟩

theorem slice (tiles : Tiles offset text tokens) :
    ∀ token ∈ tokens, ∃ before lexeme after, text = before ++ lexeme ++ after ∧ lexeme ≠ [] ∧
      token.lexeme = String.ofList lexeme ∧ token.location.offset = offset + byteLength before := by
  induction tiles with
  | nil => simp
  | @gap _ skipped _ _ _ ih =>
    intro token inTokens
    obtain ⟨before, lexeme, after, rfl, notEmpty, isLexeme, place⟩ := ih token inTokens
    refine ⟨skipped ++ before, lexeme, after, by simp, notEmpty, isLexeme, ?_⟩
    rw [byteLength_append, place, Nat.add_assoc]
  | @token _ _ first rest _ _ notEmpty isLexeme place _ ih =>
    intro token inTokens
    rcases List.mem_cons.mp inTokens with rfl | isLater
    · exact ⟨[], first, rest, rfl, notEmpty, isLexeme, place⟩
    · obtain ⟨before, lexeme, after, rfl, notEmpty, isLexeme, place⟩ := ih token isLater
      refine ⟨first ++ before, lexeme, after, by simp, notEmpty, isLexeme, ?_⟩
      rw [byteLength_append, place, Nat.add_assoc]

theorem within (tiles : Tiles offset text tokens) {token : Token} (inTokens : token ∈ tokens) :
    offset ≤ token.location.offset ∧
      token.location.offset + token.lexeme.utf8ByteSize ≤ offset + byteLength text := by
  obtain ⟨before, lexeme, after, rfl, _, isLexeme, place⟩ := tiles.slice token inTokens
  rw [byteLength_append, byteLength_append, isLexeme, utf8ByteSize_ofList]
  omega

theorem ordered (tiles : Tiles offset text tokens) : tokens.Pairwise Token.Precedes := by
  induction tiles with
  | nil => exact .nil
  | gap _ ih => exact ih
  | token _ _ isLexeme place tiles ih =>
    refine .cons (fun later isLater => ?_) ih
    rw [Token.Precedes, isLexeme, utf8ByteSize_ofList, place]
    exact (tiles.within isLater).1

end Tiles

namespace Scanner

variable (scanner : Scanner)

theorem tile_cons (segment : Segment) {tokens : List Token} (ahead : scanner.reader.rest ≠ [])
    (notEnd : ∀ kind value, segment.kind = .token kind value → kind ≠ .endOfFile)
    (behind : Tiles (scanner.skip segment).reader.place.offset (scanner.skip segment).reader.rest
      tokens) :
    Tiles scanner.reader.place.offset scanner.reader.rest
      ((scanner.tokenOf segment).toList ++ tokens) := by
  have positive := segment.length_pos
  rw [offset_skip, rest_skip] at behind
  rw [← List.take_append_drop segment.length scanner.reader.rest]
  unfold tokenOf
  split
  · rename_i kind value isToken
    refine .token (notEnd kind value isToken) ?_ (by simp) rfl behind
    simp only [ne_eq, List.take_eq_nil_iff, not_or]
    exact ⟨by omega, ahead⟩
  · exact .gap behind

theorem findings_tile (language : Language) :
    Tiles scanner.reader.place.offset scanner.reader.rest (scanner.findings language).tokens := by
  induction scanner using segmentInduction language with
  | ended scanner ahead =>
    rw [findings_nil ahead, ahead]
    exact .nil _
  | step scanner first rest ahead behind =>
    rw [findings_cons ahead]
    exact scanner.tile_cons _ (by simp [ahead]) (Segment.first_notEnd _ first rest) behind

end Scanner

/-- The stream is made of the text: the only end of the file is its last token, where the bytes of the
text end, every other token is a part of the text, and none begins before an earlier one ends. -/
structure TokenStream.Covers (text : String) (stream : TokenStream) : Prop where
  last : stream.toList = stream.body.toList ++ [Token.endOfFile stream.endLocation]
  finish : stream.endLocation.offset = text.utf8ByteSize
  notEnd : ∀ token ∈ stream.body.toList, token.kind ≠ .endOfFile
  inText : ∀ token ∈ stream.body.toList, token.LiesIn text
  ordered : stream.toList.Pairwise Token.Precedes

/-- With sound tables no rule of the scanner stands still, and every text gives a stream that is made
of it. -/
theorem tokenize_total (language : Language) (scannable : language.Scannable)
    (buffer : SourceBuffer) (diagnostics : Diagnostics) :
    (∀ first rest, language.GoesForward first rest) ∧
      (tokenize language buffer diagnostics).1.Covers buffer.text := by
  let scanner := Scanner.ofBuffer buffer diagnostics
  let stream := (tokenize language buffer diagnostics).1
  have tiles : Tiles 0 buffer.text.toList (scanner.findings language).tokens :=
    scanner.findings_tile language
  have isBody : stream.body.toList = (scanner.findings language).tokens := by
    simp only [stream, tokenize_findings, scanner]
  have isEnd : stream.endLocation.offset = 0 + byteLength buffer.text.toList := by
    simp only [stream, tokenize_findings]
    exact Scanner.offset_finish language scanner
  have isList : stream.toList = stream.body.toList ++ [Token.endOfFile stream.endLocation] := rfl
  refine ⟨scannable.goesForward, isList, ?_, ?_, ?_, ?_⟩
  · rw [isEnd, Nat.zero_add, byteLength_toList]
  · rw [isBody]
    exact tiles.notEnd
  · intro token inBody
    rw [isBody] at inBody
    obtain ⟨before, lexeme, after, isText, notEmpty, isLexeme, place⟩ := tiles.slice token inBody
    refine ⟨by simpa [isLexeme] using notEmpty, String.ofList before, String.ofList after, ?_, ?_⟩
    · rw [isLexeme, ← String.ofList_append, ← String.ofList_append, ← isText, String.ofList_toList]
    · rw [utf8ByteSize_ofList, place, Nat.zero_add]
  · rw [isList, isBody, List.pairwise_append]
    refine ⟨tiles.ordered, List.pairwise_singleton _ _, ?_⟩
    intro token inBody last isLast
    rw [List.mem_singleton.mp isLast, Token.Precedes, Token.endOfFile, isEnd]
    exact (tiles.within inBody).2

/-- A language unlike C: words of any script, octal digits, no blank but the space, and quotes and
comment marks that are operators as well. -/
def sampleDeclaration : Language.Declaration where
  name := "sample"
  version := "1"
  operators := [⟨"+", .plus, 10, .left⟩, ⟨"←", .assign, 1, .right⟩, ⟨"+=", .plusAssign, 1, .right⟩]
  punctuators := [⟨"⟨", .openParen⟩, ⟨"⟩", .closeParen⟩]
  comments := { line := some "+-", block := some ("⟨*", "\n") }
  classes :=
    { startsIdentifier := fun character =>
        character == '_' || character.isAlpha || !isAscii character
      continuesIdentifier := fun character =>
        character == '_' || character.isAlphanum || !isAscii character
      isDigit := isOctalDigit
      isBlank := fun character => character == ' ' }
  marks := { stringQuote := '+', characterQuote := '=', escape := '+' }
  numbers := { fraction := true }

theorem tokenize_total_sample :
    sampleDeclaration.build.Scannable ∧
      (∀ first rest, sampleDeclaration.build.GoesForward first rest) ∧
      (tokenize sampleDeclaration.build ⟨"a", "ü←8.7+é\n⟨*"⟩ .empty).1.Covers "ü←8.7+é\n⟨*" := by
  have operators : ∀ entry ∈ sampleDeclaration.operators, entry.symbol ≠ "" := by decide
  have punctuators : ∀ entry ∈ sampleDeclaration.punctuators, entry.symbol ≠ "" := by decide
  have scannable : sampleDeclaration.build.Scannable := by
    refine ⟨fun entry isEntry => operators entry (List.mem_mergeSort.mp isEntry),
      fun entry isEntry => punctuators entry (List.mem_mergeSort.mp isEntry), ?_, ?_, ?_, ?_, rfl⟩
    · rintro opener ⟨⟩
      exact ⟨'+', ['-'], rfl, rfl⟩
    · rintro comment ⟨⟩
      decide
    · intro character starts
      change (character == '_' || character.isAlphanum || !isAscii character) = true
      change (character == '_' || character.isAlpha || !isAscii character) = true at starts
      simp only [Bool.or_eq_true, Char.isAlphanum] at starts ⊢
      tauto
    · intro character isOctal
      change isOctalDigit character = true at isOctal
      simp only [isOctalDigit, Bool.and_eq_true, decide_eq_true_eq] at isOctal
      simp only [Char.isDigit, Bool.and_eq_true, decide_eq_true_eq]
      exact ⟨isOctal.1, UInt32.le_trans isOctal.2 (by decide)⟩
  exact ⟨scannable, tokenize_total sampleDeclaration.build scannable ⟨"a", "ü←8.7+é\n⟨*"⟩ .empty⟩

end CFrontEnd
