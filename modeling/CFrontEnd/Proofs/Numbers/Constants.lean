import CFrontEnd.Proofs.Numbers.Integers

/-!
The integer constants of a text. An integer that is scanned without a problem is one, and each of them
alone is scanned as one integer, with a problem if it is too large.
-/

namespace CFrontEnd

variable {dialect : Dialect}

/-! ## Tokens of numbers -/

/-- A number is a floating one if it has a fraction or an exponent. -/
def NumberText.kind (number : NumberText) : LiteralKind :=
  if number.isFloating then .floating else .integer

theorem NumberText.kind_eq_integer {number : NumberText} :
    number.kind = .integer ↔ number.isFloating = false := by
  simp [NumberText.kind]

theorem NumberText.kind_eq_floating {number : NumberText} :
    number.kind = .floating ↔ number.isFloating = true := by
  simp [NumberText.kind]

theorem Segment.numberAt?_literal {language : Language} {first : Char} {rest : List Char}
    {segment : Segment} {kind : LiteralKind} {value : Option Literal}
    (found : numberAt? language first rest = some segment)
    (isLiteral : segment.kind = .token (.literal kind) value) :
    let number := NumberText.read language (first :: rest)
    startsNumber language first rest = true ∧ kind = number.kind ∧
      value = some (number.judge language.numbers).1 ∧
      segment.length = number.characters.length ∧
      segment.problems = (number.judge language.numbers).2.map fun problem => (0, problem) := by
  intro number
  unfold numberAt? at found
  split at found
  · rename_i starts
    simp only at found
    split at found
    · have isSegment := Option.some.inj found
      subst isSegment
      obtain ⟨isKind, isValue⟩ := SegmentKind.token.inj isLiteral
      exact ⟨starts, (TokenKind.literal.inj isKind).symm, isValue.symm, rfl, rfl⟩
    · cases found
  · cases found

/-- No other rule finds numbers. -/
theorem Segment.numberAt?_of_literal {language : Language} {first : Char} {rest : List Char}
    {segment : Segment} {kind : LiteralKind} {value : Option Literal}
    (found : tokenAt? language first rest = some segment)
    (isLiteral : segment.kind = .token (.literal kind) value)
    (isNumber : kind = .integer ∨ kind = .floating) :
    numberAt? language first rest = some segment := by
  have apart {other : TokenKind} {otherValue : Option Literal}
      (isOther : segment.kind = .token other otherValue) : other = .literal kind := by
    rw [isLiteral] at isOther
    exact (SegmentKind.token.inj isOther).1.symm
  cases tokenAt?_rule found with
  | number found => exact found
  | quoted encoding word input _ found =>
    cases input with
    | nil => cases found
    | cons quote rest =>
      simp only [quotedAt?] at found
      split_ifs at found
      all_goals
        have isKind := TokenKind.literal.inj
          (apart (congrArg Segment.kind (Option.some.inj found)).symm)
        rcases isNumber with rfl | rfl <;> cases isKind
  | name kind isName isOther =>
    rcases isName with rfl | ⟨keyword, rfl⟩ <;> cases apart isOther
  | symbol kind _ isSymbol isOther =>
    rcases (symbolKind?_begins isSymbol).2 with ⟨operator, rfl⟩ | ⟨punctuator, rfl⟩ <;>
      cases apart isOther

/-- What is known of the token of a number: its text was read as the number, and what is wrong with the
number is all that is recorded at the offset of the token. -/
theorem exists_number_of_tokenize {buffer : SourceBuffer} {diagnostics after : Diagnostics}
    {tokens : TokenStream} {token : Token} {kind : LiteralKind}
    (tokenized : tokenize (cLanguage dialect) buffer diagnostics = (tokens, after))
    (inText : token ∈ tokens.body) (isLiteral : token.kind = .literal kind)
    (isNumber : kind = .integer ∨ kind = .floating) :
    ∃ first rest, let number := NumberText.read (cLanguage dialect) (first :: rest)
      Segment.startsNumber (cLanguage dialect) first rest = true ∧ kind = number.kind ∧
        token.lexeme.toList = number.characters ∧
        token.value = some (number.judge (cLanguage dialect).numbers).1 ∧
        ((number.judge (cLanguage dialect).numbers).2 = [] →
          ∀ problem ∈ after.toList, problem.location.offset = token.location.offset →
            problem ∈ diagnostics.toList) ∧
        ((∀ problem ∈ after.toList, problem.location.offset ≠ token.location.offset) →
          (number.judge (cLanguage dialect).numbers).2 = []) := by
  obtain ⟨here, first, rest, segment, isFoundIn, place, inProblems, isHere⟩ :=
    Token.exists_isFoundAt tokenized inText
  have isToken := isFoundIn.isToken
  rw [isLiteral] at isToken
  have found := Segment.numberAt?_of_literal isFoundIn.found isToken isNumber
  obtain ⟨starts, isKind, isValue, length, isProblems⟩ := Segment.numberAt?_literal found isToken
  have begins : StartsInLine (NumberText.read (cLanguage dialect) (first :: rest)).characters _ :=
    NumberText.characters_start rfl rfl (first :: rest)
  have lexeme : token.lexeme.toList =
      (NumberText.read (cLanguage dialect) (first :: rest)).characters := by
    rw [isFoundIn.lexeme, String.toList_ofList, length, begins.take_length]
  refine ⟨first, rest, starts, isKind, lexeme, isValue, ?_, ?_⟩
  · intro noProblems problem inAfter sameOffset
    refine (isHere problem inAfter sameOffset).resolve_right fun isProblem => ?_
    rw [Scanner.problemsOf, isProblems, noProblems] at isProblem
    cases isProblem
  · intro clean
    refine List.eq_nil_iff_forall_not_mem.mpr fun problem isProblem => ?_
    -- every problem of a number stands at its first character
    have isPlaced : here.placed segment (0, problem) ∈ here.problemsOf segment := by
      rw [Scanner.problemsOf, isProblems]
      exact List.mem_map_of_mem (List.mem_map_of_mem isProblem)
    refine clean _ (inProblems _ isPlaced) ?_
    rw [place]
    rfl

/-- A text that is read as a number, and taken whole, is scanned as that number. -/
theorem tokenize_number (buffer : SourceBuffer) {first : Char} {rest : List Char} {number : NumberText}
    {value : Literal} {problems : List LexicalProblem}
    (isText : buffer.characters = first :: rest)
    (starts : Segment.startsNumber (cLanguage dialect) first rest = true)
    (read : NumberText.read (cLanguage dialect) (first :: rest) = number)
    (whole : number.characters = first :: rest)
    (judged : number.judge (cLanguage dialect).numbers = (value, problems))
    (diagnostics : Diagnostics) :
    ∃ tokens,
      tokenize (cLanguage dialect) buffer diagnostics = (tokens, diagnostics.append
        ⟨(problems.map fun problem =>
          ⟨.lexical, ⟨buffer.name, 1, 1, 0⟩, problem.message⟩).toArray⟩) ∧
      tokens.body.toList.map Token.word = [⟨.literal number.kind, buffer.text, some value⟩] := by
  let segment : Segment :=
    { kind := .token (.literal number.kind) (some value), length := (first :: rest).length,
      problems := problems.map fun problem => (0, problem), length_pos := Nat.succ_pos _ }
  have found : Segment.tokenAt? (cLanguage dialect) first rest = some segment := by
    simp [Segment.tokenAt?, Segment.numberAt?, starts, read, whole, judged, segment, NumberText.kind]
  have isFirst : (Scanner.ofBuffer buffer diagnostics).segment (cLanguage dialect) first rest =
      segment :=
    Segment.first_of_startsNumber _ starts found
  obtain ⟨tokens, tokenized, isWord⟩ := tokenize_segment rfl isText isFirst rfl rfl
  have isLexeme : String.ofList (first :: rest) = buffer.text := by
    rw [← isText]
    exact String.ofList_toList
  refine ⟨tokens, ?_, isLexeme ▸ isWord⟩
  rw [tokenized, Scanner.problemsOf, List.map_map]
  rfl

/-! ## From tokens to constants -/

namespace NumberText

/-- What is read without a problem, and is no floating constant, is written as a constant. -/
theorem exists_isIntegerConstant {input : List Char}
    (notFloating : (read (cLanguage dialect) input).isFloating = false)
    (clean : ((read (cLanguage dialect) input).judge (cLanguage dialect).numbers).2 = []) :
    let number := read (cLanguage dialect) input
    ∃ value suffix, IsIntegerConstant dialect number.characters value suffix ∧ value < 2 ^ 64 ∧
      (number.judge (cLanguage dialect).numbers).1 = .integer value suffix := by
  intro number
  obtain ⟨suffix, spells, valueClean, isJudged⟩ := judge_clean notFloating clean
  obtain ⟨mark, digits, radix, isNumeral, same, fits, isValue⟩ := exists_isNumeral valueClean
  have noFraction : number.fraction = none ∧ number.exponent = none := by
    simpa [isFloating] using notFloating
  have isText : number.characters = mark ++ (digits ++ number.suffix) := by
    simp only [characters, body, noFraction, pointAndFraction, letterAndExponent, List.append_nil]
    rw [same, List.append_assoc]
  rw [isText]
  exact ⟨_, suffix, .mk isNumeral spells, fits, isJudged.trans (by rw [isValue])⟩

end NumberText

theorem exists_constant_of_tokenize {buffer : SourceBuffer} {diagnostics after : Diagnostics}
    {tokens : TokenStream} {token : Token}
    (tokenized : tokenize (cLanguage dialect) buffer diagnostics = (tokens, after))
    (inText : token ∈ tokens.body) (isInteger : token.kind = .literal .integer)
    (clean : ∀ problem ∈ after.toList, problem.location.offset ≠ token.location.offset) :
    ∃ value suffix, IsIntegerConstant dialect token.lexeme.toList value suffix ∧ value < 2 ^ 64 ∧
      token.value = some (.integer value suffix) := by
  obtain ⟨first, rest, _, isKind, lexeme, isValue, _, noProblems⟩ :=
    exists_number_of_tokenize tokenized inText isInteger (.inl rfl)
  obtain ⟨value, suffix, isConstant, fits, isJudged⟩ := NumberText.exists_isIntegerConstant
    (NumberText.kind_eq_integer.mp isKind.symm) (noProblems clean)
  rw [lexeme, isValue, isJudged]
  exact ⟨value, suffix, isConstant, fits, rfl⟩

/-! ## From constants to tokens -/

/-- The problem of a constant that is too large. -/
def integerDiagnostics (name : String) (value : Nat) : List Diagnostic :=
  if value < 2 ^ 64 then []
  else
    [⟨.lexical, ⟨name, 1, 1, 0⟩,
      "integer literal is too large to be represented in any integer type"⟩]

theorem IsNumeral.starts {mark digits : List Char} {radix : Nat}
    (isNumeral : IsNumeral dialect mark digits radix) (letters : List Char) :
    ∃ first rest, mark ++ (digits ++ letters) = first :: rest ∧ first.isDigit = true := by
  cases isNumeral with
  | zero => exact ⟨'0', letters, rfl, by decide⟩
  | @decimal first rest _ areDigits =>
    exact ⟨first, rest ++ letters, rfl, areDigits first List.mem_cons_self⟩
  | octal => exact ⟨'0', _, rfl, by decide⟩
  | hexadecimal => exact ⟨'0', _, rfl, by decide⟩
  | binary => exact ⟨'0', _, rfl, by decide⟩

theorem tokenize_constant {text : String} {value : Nat} {suffix : IntegerSuffix}
    (isConstant : IsIntegerConstant dialect text.toList value suffix) (name : String)
    (diagnostics : Diagnostics) :
    ∃ tokens,
      tokenize (cLanguage dialect) ⟨name, text⟩ diagnostics =
        (tokens, diagnostics.append ⟨(integerDiagnostics name value).toArray⟩) ∧
      tokens.body.toList.map Token.word =
        [⟨.literal .integer, text, some (.integer (if value < 2 ^ 64 then value else 0) suffix)⟩] := by
  generalize isText : text.toList = characters at isConstant
  cases isConstant with
  | @mk mark digits letters radix suffix isNumeral spells =>
    obtain ⟨number, read, notFloating, whole, judged⟩ := isNumeral.exists_number spells
    obtain ⟨first, rest, starts, isDigit⟩ := isNumeral.starts letters
    rw [starts] at isText read whole
    rw [integerDiagnostics]
    have isInteger := NumberText.kind_eq_integer.mpr notFloating
    have startsNumber : Segment.startsNumber (cLanguage dialect) first rest = true :=
      Segment.startsNumber_digit isDigit rest
    have tokenized {value problems} (judged : number.judge _ = (value, problems)) :=
      tokenize_number ⟨name, text⟩ isText startsNumber read whole judged diagnostics
    rw [isInteger] at tokenized
    by_cases fits : numeral radix digits < 2 ^ 64
    · rw [if_pos fits] at judged
      rw [if_pos fits, if_pos fits]
      exact tokenized judged
    · rw [if_neg fits] at judged
      rw [if_neg fits, if_neg fits]
      exact tokenized judged

/-- Each integer that is scanned without a problem at its place is a constant of C, with the value of its
digits in their radix and with its suffix. In turn each constant alone is scanned as one integer, with these
if its value fits 64 bits, and else as zero and with the one problem that it does not. -/
theorem tokenize_integers (dialect : Dialect) :
    (∀ buffer diagnostics tokens after,
      tokenize (cLanguage dialect) buffer diagnostics = (tokens, after) →
      ∀ token ∈ tokens.body, token.kind = .literal .integer →
        (∀ problem ∈ after.toList, problem.location.offset ≠ token.location.offset) →
        ∃ value suffix, IsIntegerConstant dialect token.lexeme.toList value suffix ∧
          value < 2 ^ 64 ∧ token.value = some (.integer value suffix)) ∧
    ∀ text value suffix, IsIntegerConstant dialect text.toList value suffix →
      ∀ name diagnostics, ∃ tokens,
        tokenize (cLanguage dialect) ⟨name, text⟩ diagnostics =
          (tokens, diagnostics.append ⟨(integerDiagnostics name value).toArray⟩) ∧
        tokens.body.toList.map Token.word =
          [⟨.literal .integer, text, some (.integer (if value < 2 ^ 64 then value else 0) suffix)⟩] := by
  constructor
  · intro buffer diagnostics tokens after tokenized token inText isInteger clean
    exact exists_constant_of_tokenize tokenized inText isInteger clean
  · intro text value suffix isConstant name diagnostics
    exact tokenize_constant isConstant name diagnostics

/-- An octal constant that is too large, and a hexadecimal one with a suffix that is read as digits no
further than it should be. -/
theorem tokenize_integers_limits :
    (IsIntegerConstant gnuC17 "02000000000000000000000ul".toList (2 ^ 64) ⟨true, 1⟩ ∧ ∃ tokens,
      tokenize (cLanguage gnuC17) ⟨"<input>", "02000000000000000000000ul"⟩ .empty =
        (tokens, ⟨#[⟨.lexical, ⟨"<input>", 1, 1, 0⟩,
          "integer literal is too large to be represented in any integer type"⟩]⟩) ∧
      tokens.body.toList.map Token.word =
        [⟨.literal .integer, "02000000000000000000000ul", some (.integer 0 ⟨true, 1⟩)⟩]) ∧
    ∃ tokens token, tokenize (cLanguage gnuC17) ⟨"<input>", "0xFfLLU"⟩ .empty = (tokens, .empty) ∧
      tokens.body = #[token] ∧ token.kind = .literal .integer ∧
      ∃ value suffix, IsIntegerConstant gnuC17 token.lexeme.toList value suffix ∧
        value < 2 ^ 64 ∧ token.value = some (.integer value suffix) := by
  have isOctal : IsNumeral gnuC17 ['0'] "2000000000000000000000".toList 8 :=
    .octal (by decide) (List.all_eq_true.mp (by decide))
  have octal : IsIntegerConstant gnuC17 "02000000000000000000000ul".toList (2 ^ 64) ⟨true, 1⟩ :=
    .mk isOctal (.unsignedFirst (.inl rfl) (by decide))
  have isHex : IsNumeral gnuC17 ['0', 'x'] ['F', 'f'] 16 :=
    .hexadecimal (.inl rfl) (by decide) (List.all_eq_true.mp (by decide))
  have isLast : SpellsSuffix (['L', 'L'] ++ ['U']) ⟨true, 2⟩ := .unsignedLast (.inr rfl) (by decide)
  have hexadecimal : IsIntegerConstant gnuC17 "0xFfLLU".toList 0xFF ⟨true, 2⟩ := .mk isHex isLast
  obtain ⟨fromTokens, fromConstants⟩ := tokenize_integers gnuC17
  refine ⟨⟨octal, fromConstants _ _ _ octal "<input>" .empty⟩, ?_⟩
  obtain ⟨tokens, tokenized, areWords⟩ := fromConstants _ _ _ hexadecimal "<input>" .empty
  obtain ⟨token, single, isWord⟩ := List.map_eq_singleton_iff.mp areWords
  have isBody : tokens.body = #[token] := Array.toList_inj.mp single
  have isInteger := (Token.word_eq_mk.mp isWord).1
  have clean : tokenize (cLanguage gnuC17) ⟨"<input>", "0xFfLLU"⟩ .empty = (tokens, .empty) := tokenized
  refine ⟨tokens, token, clean, isBody, isInteger, ?_⟩
  exact fromTokens _ _ _ _ clean token (by simp [isBody]) isInteger fun _ inNone =>
    absurd inNone List.not_mem_nil

end CFrontEnd
