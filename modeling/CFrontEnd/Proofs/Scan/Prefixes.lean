import CFrontEnd.Proofs.Scan.Composition
import CFrontEnd.Proofs.Scan.Lexemes

/-!
What the tokens of a text begin with if only the beginning of the text is known.
-/

namespace CFrontEnd

/-- Behind its words the scanner goes on with what comes next. -/
theorem ScansAs.goesOn {dialect : Dialect} {text : String} {front next : List Char}
    {words : List Word} (scans : ScansAs dialect front words next)
    (isText : text.toList = front ++ next) (name : String) (diagnostics : Diagnostics) :
    ∃ (scanner : Scanner) (tokens : List Token), scanner.reader.rest = next ∧
      tokens.map Token.word = words ∧
      CFrontEnd.tokenize (cLanguage dialect) ⟨name, text⟩ diagnostics =
        (⟨(tokens ++ (scanner.findings (cLanguage dialect)).tokens).toArray,
            (scanner.findings (cLanguage dialect)).finish⟩,
          ⟨diagnostics.entries ++ (scanner.findings (cLanguage dialect)).problems.toArray⟩) := by
  obtain ⟨scanner, tokens, ahead, same, isWords, drained⟩ :=
    scans (Scanner.ofBuffer ⟨name, text⟩ diagnostics) #[] isText
  have same : scanner.diagnostics = diagnostics := same
  refine ⟨scanner, tokens, ahead, isWords, ?_⟩
  rw [CFrontEnd.tokenize, drained, Scanner.drain_findings, same]
  simp

theorem TokenStream.hasWordsAt_front (tokens more : List Token) (finish : SourceLocation) :
    TokenStream.HasWordsAt ⟨(tokens ++ more).toArray, finish⟩ 0 (tokens.map Token.word) := by
  have whole := TokenStream.hasWordsAt_body ⟨(tokens ++ more).toArray, finish⟩
  simp only [List.map_append, TokenStream.hasWordsAt_append] at whole
  exact whole.1

theorem TokenStream.HasWordsAt.get {stream : TokenStream} {position : Nat} {words : List Word}
    (has : stream.HasWordsAt position words) {index : Nat} {word : Word}
    (isWord : words[index]? = some word) : (stream.get (position + index)).word = word := by
  induction words generalizing position index with
  | nil => cases isWord
  | cons first rest ih =>
    cases index with
    | zero =>
      obtain rfl := Option.some.inj isWord
      exact has.1
    | succ index =>
      have later : position + (index + 1) = position + 1 + index := by omega
      rw [later]
      exact ih has.2 isWord

/-- The words that the beginning of a text is scanned as are the first ones of the whole text. -/
theorem ScansAs.hasWords {dialect : Dialect} {text : String} {front next : List Char}
    {words : List Word} (scans : ScansAs dialect front words next)
    (isText : text.toList = front ++ next) (name : String) (diagnostics : Diagnostics) :
    (CFrontEnd.tokenize (cLanguage dialect) ⟨name, text⟩ diagnostics).1.HasWordsAt 0 words := by
  obtain ⟨scanner, tokens, _, isWords, tokenized⟩ := scans.goesOn isText name diagnostics
  rw [tokenized, ← isWords]
  exact TokenStream.hasWordsAt_front _ _ _

/-! ## Digits in front of a point -/

namespace NumberText

variable {dialect : Dialect} {digits later : List Char}

variable (dialect later) in
/-- Digits with a point behind them are the beginning of a number with a fraction. -/
theorem read_point (areDigits : ∀ digit ∈ digits, digit.isDigit = true) (notEmpty : digits ≠ []) :
    (read (cLanguage dialect) (digits ++ '.' :: later)).whole = digits ∧
      (read (cLanguage dialect) (digits ++ '.' :: later)).fraction =
        some (later.takeWhile (isDigitOf 10)) := by
  have radix (forms : NumberForms) : announcedRadix forms (digits ++ '.' :: later) = (10, 0) := by
    refine announcedRadix_digits forms areDigits notEmpty ?_
    rintro _ ⟨⟩
    decide
  have whole : (digits ++ '.' :: later).takeWhile (isDigitOf 10) = digits := by
    refine takeWhile_run areDigits ?_
    rintro _ ⟨⟩
    decide
  have fraction : fractionAt (cLanguage dialect).numbers 10 ('.' :: later) =
      some (later.takeWhile (isDigitOf 10)) := rfl
  simp only [read, radix, List.drop_zero, whole, List.drop_left, fraction, and_self]

end NumberText

variable (dialect : Dialect) (later : List Char) in
/-- With a point right behind them, the digits of an integer are scanned as the beginning of another
number. -/
theorem Segment.first_point {digits : List Char}
    (areDigits : ∀ digit ∈ digits, digit.isDigit = true) (notEmpty : digits ≠ []) :
    ∃ first rest, digits ++ '.' :: later = first :: rest ∧ ∀ atLineStart, ∃ value,
      (Segment.first (cLanguage dialect) atLineStart first rest).kind =
        .token (.literal .floating) (some value) := by
  obtain ⟨first, rest, rfl⟩ := List.exists_cons_of_ne_nil notEmpty
  obtain ⟨isWhole, isFraction⟩ := NumberText.read_point dialect later areDigits notEmpty
  have isDigit := areDigits first List.mem_cons_self
  rw [List.cons_append] at isWhole isFraction
  have isFloating : (NumberText.read (cLanguage dialect) (first :: (rest ++ '.' :: later))).isFloating =
      true := by
    simp [NumberText.isFloating, isFraction]
  have someCharacters : 0 < (NumberText.read (cLanguage dialect)
      (first :: (rest ++ '.' :: later))).characters.length := by
    simp [NumberText.characters, NumberText.body, isWhole]
  refine ⟨first, rest ++ '.' :: later, rfl, fun atLineStart => ?_⟩
  have found : ∃ segment, tokenAt? (cLanguage dialect) first (rest ++ '.' :: later) = some segment ∧
      ∃ value, segment.kind = .token (.literal .floating) (some value) := by
    simp only [tokenAt?, numberAt?, startsNumber_digit isDigit, if_true, isFloating, someCharacters,
      dite_true]
    exact ⟨_, rfl, _, rfl⟩
  obtain ⟨segment, isToken, value, isKind⟩ := found
  exact ⟨value, by rw [first_of_startsNumber atLineStart (startsNumber_digit isDigit _) isToken, isKind]⟩

/-- Behind its words the text goes on with a number with a fraction. -/
theorem ScansAs.hasWords_point {dialect : Dialect} {text : String} {front digits later : List Char}
    {words : List Word} (scans : ScansAs dialect front words (digits ++ '.' :: later))
    (areDigits : ∀ digit ∈ digits, digit.isDigit = true) (notEmpty : digits ≠ [])
    (isText : text.toList = front ++ (digits ++ '.' :: later)) (name : String)
    (diagnostics : Diagnostics) :
    ∃ token : Token, token.kind = .literal .floating ∧
      (CFrontEnd.tokenize (cLanguage dialect) ⟨name, text⟩ diagnostics).1.HasWordsAt 0
        (words ++ [token.word]) := by
  obtain ⟨scanner, tokens, ahead, isWords, tokenized⟩ := scans.goesOn isText name diagnostics
  obtain ⟨first, rest, characters, isFloating⟩ := Segment.first_point dialect later areDigits notEmpty
  obtain ⟨value, isKind⟩ := isFloating scanner.reader.place.atLineStart
  rw [characters] at ahead
  obtain ⟨token, more, found, isToken⟩ : ∃ token more,
      (scanner.findings (cLanguage dialect)).tokens = token :: more ∧
        token.kind = .literal .floating := by
    have isKind : (scanner.segment (cLanguage dialect) first rest).kind =
        .token (.literal .floating) (some value) := isKind
    rw [Scanner.findings_cons ahead, Scanner.tokenOf, isKind]
    exact ⟨_, _, rfl, rfl⟩
  have listed := TokenStream.hasWordsAt_front (tokens ++ [token]) more
    (scanner.findings (cLanguage dialect)).finish
  rw [List.append_assoc, List.singleton_append, ← found, List.map_append, isWords] at listed
  rw [tokenized]
  exact ⟨token, isToken, listed⟩

end CFrontEnd
