import CFrontEnd.Proofs.Scan.Words
import CFrontEnd.Proofs.Text.Numerals

/-!
How symbols, words and integers are scanned, each in front of a text that does not go on with it.
-/

namespace CFrontEnd

/-- A word stops here: neither a further character of it comes next, nor a quote of a literal. -/
def EndsWord (next : List Char) : Prop :=
  ∀ character, next.head? = some character →
    (character == '_' || character.isAlphanum) = false ∧ character ≠ '"' ∧ character ≠ '\''

theorem EndsWord.takeWhile {holds : Char → Bool} {next : List Char} (ends : EndsWord next)
    (inWord : ∀ character, holds character = true →
      (character == '_' || character.isAlphanum) = true) : next.takeWhile holds = [] := by
  cases next with
  | nil => rfl
  | cons character rest =>
    refine List.takeWhile_cons_of_neg ?_
    intro isHeld
    have continues := inWord character isHeld
    rw [(ends character rfl).1] at continues
    cases continues

/-! ## Symbols -/

theorem head_cSymbols : ∀ symbol ∈ cSymbols, ∀ first, symbol.toList.head? = some first →
    first ∉ cWhiteSpace ∧ first ≠ '\\' ∧ first ≠ '#' ∧ first.isDigit = false ∧ first ≠ '"' ∧
      first ≠ '\'' ∧ first ≠ '_' ∧ first.isAlpha = false := by
  have decided : cSymbols.all (fun symbol => symbol.toList.head?.all fun first =>
      !cWhiteSpace.contains first && first != '\\' && first != '#' && !first.isDigit &&
        first != '"' && first != '\'' && first != '_' && !first.isAlpha) = true := by
    decide
  intro symbol isSymbol first isFirst
  have holds := List.all_eq_true.mp decided symbol isSymbol
  rw [isFirst] at holds
  simpa [and_assoc] using holds

theorem slash_cSymbols : ∀ symbol ∈ cSymbols, symbol.toList.head? = some '/' →
    symbol = "/" ∨ symbol = "/=" := by
  decide

theorem point_cSymbols : ∀ symbol ∈ cSymbols, symbol.toList.head? = some '.' →
    symbol = "." ∨ symbol = "..." := by
  decide

namespace EndsSymbol

variable {symbol : String} {next : List Char} {character : Char}

theorem notComment (ends : EndsSymbol symbol next) (isSymbol : symbol ∈ cSymbols)
    (second : character = '/' ∨ character = '*') :
    ¬ ['/', character] <+: symbol.toList ++ next := by
  rintro ⟨later, same⟩
  have isSlash : symbol.toList.head? = some '/' := by
    have notEmpty := cSymbols_length_pos symbol isSymbol
    rw [← String.length_toList] at notEmpty
    obtain ⟨first, tail, characters⟩ := List.exists_cons_of_length_pos notEmpty
    rw [characters] at same ⊢
    obtain ⟨rfl, _⟩ := List.cons.inj same
    rfl
  rcases slash_cSymbols symbol isSymbol isSlash with rfl | rfl
  · have same : '/' :: character :: later = '/' :: next := same
    obtain ⟨_, rfl⟩ := List.cons.inj same
    have isTail := (ends character rfl).1
    rcases second with rfl | rfl
    · exact absurd isTail (by decide)
    · exact absurd isTail (by decide)
  · have same : '/' :: character :: later = '/' :: '=' :: next := same
    obtain ⟨_, same⟩ := List.cons.inj same
    obtain ⟨rfl, _⟩ := List.cons.inj same
    simp at second

end EndsSymbol

namespace Segment

variable {dialect : Dialect} {first : Char} {rest : List Char} {segment : Segment}

theorem numberAt?_eq_none (notDigit : first.isDigit = false)
    (notPoint : first = '.' → ∀ second, rest.head? = some second → second.isDigit = false) :
    numberAt? (cLanguage dialect) first rest = none := by
  have starts : startsNumber (cLanguage dialect) first rest = false := by
    simp only [startsNumber, cLanguage, Language.Declaration.build, notDigit, Bool.false_or]
    by_cases isPoint : first = '.'
    · cases rest with
      | nil => simp
      | cons second rest => simp [notPoint isPoint second rfl]
    · simp [isPoint]
  simp [numberAt?, starts]

theorem quotedAt?_eq_none {encoding : Encoding} {before : Nat} {input : List Char}
    (notQuote : ∀ quote, input.head? = some quote → quote ≠ '"' ∧ quote ≠ '\'') :
    quotedAt? (cLanguage dialect) encoding before input = none := by
  cases input with
  | nil => rfl
  | cons quote rest =>
    obtain ⟨notString, notCharacter⟩ := notQuote quote rfl
    simp [quotedAt?, cLanguage, Language.Declaration.build, notString, notCharacter]

end Segment

namespace ScansAs

variable {dialect : Dialect} {next : List Char}

theorem symbol {kind : TokenKind} {symbol : String} (known : (kind, symbol) ∈ cSymbolKinds)
    (ends : EndsSymbol symbol next) :
    ScansAs dialect symbol.toList [⟨kind, symbol, none⟩] next := by
  have isSymbol := mem_cSymbols known
  have notEmpty := cSymbols_length_pos symbol isSymbol
  have longest : Segment.symbolKind? (cLanguage dialect) _ = _ := Segment.symbolKind?_eq known ends
  have notLine := ends.notComment isSymbol (.inl rfl)
  have notBlock := ends.notComment isSymbol (.inr rfl)
  have heads := head_cSymbols symbol isSymbol
  have points := point_cSymbols symbol isSymbol
  cases characters : symbol.toList with
  | nil => simp [← String.length_toList, characters] at notEmpty
  | cons first tail =>
    rw [characters] at longest notLine notBlock heads points
    rw [List.cons_append] at longest notLine notBlock
    obtain ⟨notBlank, notSplice, notDirective, notDigit, notString, notCharacter, notUnderscore,
      notLetter⟩ := heads first rfl
    -- Of the symbols that begin with a point, the point itself must not have a digit behind it.
    have noNumber : Segment.numberAt? (cLanguage dialect) first (tail ++ next) = none := by
      refine Segment.numberAt?_eq_none notDigit ?_
      intro isPoint second isSecond
      rcases points (by rw [isPoint]; rfl) with rfl | rfl
      · obtain ⟨_, rfl⟩ := List.cons.inj characters
        exact (ends second isSecond).2 rfl
      · obtain ⟨_, rfl⟩ := List.cons.inj characters
        obtain rfl := Option.some.inj isSecond
        decide
    have noQuoted : Segment.quotedAt? (cLanguage dialect) .plain 0 (first :: (tail ++ next)) = none :=
      Segment.quotedAt?_eq_none (by rintro _ ⟨⟩; exact ⟨notString, notCharacter⟩)
    have noWord : Segment.wordAt? (cLanguage dialect) first (tail ++ next) = none := by
      simp [Segment.wordAt?, cLanguage, Language.Declaration.build, notUnderscore, notLetter]
    have found : Segment.tokenAt? (cLanguage dialect) first (tail ++ next) =
        some { kind := .token kind none, length := symbol.length, length_pos := notEmpty } := by
      simp [Segment.tokenAt?, noNumber, noQuoted, noWord, Segment.symbolAt?, longest, notEmpty]
    have whole : symbol = String.ofList (first :: tail) := by rw [← characters, String.ofList_toList]
    rw [whole]
    refine .token (fun atLineStart => Segment.first_of_tokenAt? atLineStart notBlank notSplice
      notDirective notLine notBlock found) ?_ rfl rfl
    rw [← characters, String.length_toList]

end ScansAs

/-! ## Words -/

/-- The ASCII identifiers, reserved words among them. -/
def isIdentifierText (name : String) : Bool :=
  match name.toList with
  | [] => false
  | first :: rest =>
    (first == '_' || first.isAlpha) &&
      rest.all fun character => character == '_' || character.isAlphanum

theorem isDigit_of_startsIdentifier {first : Char}
    (starts : (first == '_' || first.isAlpha) = true) : first.isDigit = false := by
  cases isDigit : first.isDigit with
  | false => rfl
  | true =>
    simp only [Char.isDigit, Bool.and_eq_true, decide_eq_true_eq] at isDigit
    change (first == '_' || (first.isUpper || first.isLower)) = true at starts
    simp only [Bool.or_eq_true, beq_iff_eq] at starts
    rcases starts with rfl | isUpper | isLower
    · exact absurd isDigit (by decide)
    · have range : first.val ≥ 'A'.val ∧ first.val ≤ 'Z'.val := of_decide_eq_true isUpper
      exact absurd (UInt32.le_trans range.1 isDigit.2) (by decide)
    · have range := ((Bool.and_eq_true _ _).mp isLower).1
      exact absurd (UInt32.le_trans (of_decide_eq_true range) isDigit.2) (by decide)

/-- What begins like a word is a word, or the literal that the word gives its encoding. -/
theorem Segment.first_of_wordAt? {dialect : Dialect} {first : Char} {rest : List Char}
    {segment : Segment} (atLineStart : Bool) (starts : (first == '_' || first.isAlpha) = true)
    (found : wordAt? (cLanguage dialect) first rest = some segment) :
    Segment.first (cLanguage dialect) atLineStart first rest = segment := by
  have different : ∀ other ∈ '\\' :: '#' :: '/' :: '.' :: '"' :: '\'' :: cWhiteSpace,
      first ≠ other := by
    have decided : ('\\' :: '#' :: '/' :: '.' :: '"' :: '\'' :: cWhiteSpace).all
        (fun other => !(other == '_' || other.isAlpha)) = true := by
      decide
    rintro other inList rfl
    have notStarts := List.all_eq_true.mp decided first inList
    rw [starts] at notStarts
    cases notStarts
  simp only [List.forall_mem_cons] at different
  obtain ⟨notSplice, notDirective, notSlash, notPoint, notString, notCharacter, notBlank⟩ :=
    different
  have notBlank : first ∉ cWhiteSpace := fun isBlank => notBlank first isBlank rfl
  have noNumber : numberAt? (cLanguage dialect) first rest = none :=
    numberAt?_eq_none (isDigit_of_startsIdentifier starts) (fun isPoint => absurd isPoint notPoint)
  have noQuoted : quotedAt? (cLanguage dialect) .plain 0 (first :: rest) = none :=
    quotedAt?_eq_none (by rintro _ ⟨⟩; exact ⟨notString, notCharacter⟩)
  have notComment (second : Char) : ¬ ['/', second] <+: first :: rest := by
    simp [Ne.symm notSlash]
  have isToken : tokenAt? (cLanguage dialect) first rest = some segment := by
    simp [tokenAt?, noNumber, noQuoted, found]
  exact first_of_tokenAt? atLineStart notBlank notSplice notDirective (notComment _) (notComment _)
    isToken

namespace ScansAs

variable {dialect : Dialect} {next : List Char} {name : String}

theorem word {kind : TokenKind} (isText : isIdentifierText name = true)
    (isKind : (match (cLanguage dialect).keyword? name with
      | some keyword => TokenKind.keyword keyword
      | none => .identifier) = kind) (ends : EndsWord next) :
    ScansAs dialect name.toList [⟨kind, name, none⟩] next := by
  unfold isIdentifierText at isText
  split at isText
  · cases isText
  · rename_i first tail characters
    rw [Bool.and_eq_true] at isText
    obtain ⟨starts, continues⟩ := isText
    have whole : String.ofList (first :: tail) = name := by rw [← characters, String.ofList_toList]
    have run : (tail ++ next).takeWhile (cLanguage dialect).classes.continuesIdentifier = tail := by
      change (tail ++ next).takeWhile (fun character => character == '_' || character.isAlphanum) = tail
      rw [List.takeWhile_append_of_pos (List.all_eq_true.mp continues),
        ends.takeWhile fun _ isHeld => isHeld, List.append_nil]
    have noLiteral (encoding : Encoding) (before : Nat) :
        Segment.quotedAt? (cLanguage dialect) encoding before next = none :=
      Segment.quotedAt?_eq_none fun quote isQuote => (ends quote isQuote).2
    have found : Segment.wordAt? (cLanguage dialect) first (tail ++ next) =
        some { kind := .token kind none, length := (first :: tail).length, length_pos := by simp } := by
      have starts : (cLanguage dialect).classes.startsIdentifier first = true := starts
      simp only [Segment.wordAt?, starts, run, whole, if_true]
      cases Encoding.ofSpelling? (first :: tail) with
      | none =>
        simp
        exact isKind
      | some encoding =>
        simp [noLiteral]
        exact isKind
    rw [characters, ← whole]
    exact .token (fun atLineStart => Segment.first_of_wordAt? atLineStart starts found) rfl rfl rfl

theorem identifier (isText : isIdentifierText name = true)
    (notKeyword : (cLanguage dialect).keyword? name = none) (ends : EndsWord next) :
    ScansAs dialect name.toList [Word.identifier name] next :=
  .word isText (by rw [notKeyword]) ends

theorem keyword {keyword : Keyword} (isText : isIdentifierText name = true)
    (isKeyword : (cLanguage dialect).keyword? name = some keyword) (ends : EndsWord next) :
    ScansAs dialect name.toList [Word.keyword keyword name] next :=
  .word isText (by rw [isKeyword]) ends

end ScansAs

/-! ## Integers -/

/-- The digits of an integer stop here, with no mark, fraction or exponent to come. -/
def EndsDigits (next : List Char) : Prop :=
  ∀ character, next.head? = some character → character.isDigit = false ∧ character ≠ '.' ∧
    character.toLower ≠ 'e' ∧ character ∉ ['x', 'X', 'b', 'B']

theorem isAlphanum_of_toLower {character : Char} (isExponent : character.toLower = 'e') :
    character.isAlphanum = true := by
  by_cases isUpper : character.isUpper = true
  · change (character.isUpper || character.isLower || character.isDigit) = true
    rw [isUpper, Bool.true_or, Bool.true_or]
  · have same : character.toLower = character := by
      have range : ¬ (character.val ≥ 'A'.val ∧ character.val ≤ 'Z'.val) :=
        fun inRange => isUpper (decide_eq_true inRange)
      exact dif_neg range
    rw [← same, isExponent]
    decide

theorem EndsWord.digits {letters next : List Char} (ends : EndsWord next)
    (inSuffix : ∀ letter ∈ letters, letter = 'u' ∨ letter = 'l')
    (notPoint : letters = [] → next.head? ≠ some '.') : EndsDigits (letters ++ next) := by
  intro character isNext
  cases letters with
  | nil =>
    obtain ⟨notWord, _, _⟩ := ends character isNext
    simp only [Bool.or_eq_false_iff] at notWord
    have notLetter : character.isAlphanum ≠ true := by simp [notWord.2]
    refine ⟨?_, ?_, ?_, ?_⟩
    · simp only [Char.isAlphanum, Bool.or_eq_false_iff] at notWord
      exact notWord.2.2
    · rintro rfl
      exact notPoint rfl isNext
    · exact fun isExponent => notLetter (isAlphanum_of_toLower isExponent)
    · intro isMark
      simp only [List.mem_cons, List.not_mem_nil, or_false] at isMark
      rcases isMark with rfl | rfl | rfl | rfl <;> exact notLetter (by decide)
  | cons letter rest =>
    obtain rfl := Option.some.inj isNext
    rcases inSuffix letter (by simp) with rfl | rfl <;> decide

namespace NumberText

variable {dialect : Dialect} {digits letters next : List Char}

/-- A letter behind the first digit would announce another radix. -/
theorem announcedRadix_digits (forms : NumberForms) (areDigits : ∀ digit ∈ digits, digit.isDigit = true)
    (notEmpty : digits ≠ [])
    (noMark : ∀ character, next.head? = some character → character ∉ ['x', 'X', 'b', 'B']) :
    announcedRadix forms (digits ++ next) = (10, 0) := by
  have notMark : ∀ second, (digits ++ next)[1]? = some second → second ∉ ['x', 'X', 'b', 'B'] := by
    intro second isSecond
    cases digits with
    | nil => exact absurd rfl notEmpty
    | cons first rest =>
      cases rest with
      | nil =>
        refine noMark second ?_
        simpa [List.head?_eq_getElem?] using isSecond
      | cons digit rest =>
        obtain rfl : digit = second := by simpa using isSecond
        have isDigit := areDigits digit (by simp)
        intro isMark
        simp only [List.mem_cons, List.not_mem_nil, or_false] at isMark
        rcases isMark with rfl | rfl | rfl | rfl <;> exact absurd isDigit (by decide)
  unfold announcedRadix
  split
  · rename_i mark digit rest same
    rw [same] at notMark
    have marks := notMark mark rfl
    simp only [List.mem_cons, List.not_mem_nil, or_false, not_or] at marks
    simp [marks]
  · rfl

/-- The digits of a number stop here, with no fraction or exponent to come. -/
def EndsWhole (radix : Nat) (next : List Char) : Prop :=
  ∀ character, next.head? = some character → isDigitOf radix character = false ∧
    character ≠ '.' ∧ character.toLower ≠ if radix = 16 then 'p' else 'e'

/-- A number is read as its parts, if each of them stops where the next one begins. -/
theorem read_parts {radix : Nat} (mark : List Char) {whole : List Char} {fraction : Option (List Char)}
    {exponent : Option (Char × List Char)}
    (announced : announcedRadix (cLanguage dialect).numbers (mark ++ (whole ++
      (pointAndFraction fraction ++ (letterAndExponent exponent ++ (letters ++ next))))) =
        (radix, mark.length))
    (areDigits : ∀ digit ∈ whole, isDigitOf radix digit = true)
    (stops : ∀ character, (pointAndFraction fraction ++
      (letterAndExponent exponent ++ (letters ++ next))).head? = some character →
        isDigitOf radix character = false)
    (isFraction : fractionAt (cLanguage dialect).numbers radix (pointAndFraction fraction ++
      (letterAndExponent exponent ++ (letters ++ next))) = fraction)
    (isExponent : exponentAt (cLanguage dialect).numbers radix
      (letterAndExponent exponent ++ (letters ++ next)) = exponent)
    (inSuffix : ∀ letter ∈ letters, isSuffixLetter letter = true) (ends : EndsWord next) :
    read (cLanguage dialect) (mark ++ (whole ++
      (pointAndFraction fraction ++ (letterAndExponent exponent ++ (letters ++ next))))) =
        { radix := radix, mark := mark, whole := whole, fraction := fraction, exponent := exponent,
          suffix := letters, overrun := false } := by
  have isWhole : (whole ++ (pointAndFraction fraction ++
      (letterAndExponent exponent ++ (letters ++ next)))).takeWhile (isDigitOf radix) = whole :=
    takeWhile_run areDigits stops
  have suffix : (letters ++ next).takeWhile isSuffixLetter = letters := by
    rw [List.takeWhile_append_of_pos inSuffix, ends.takeWhile, List.append_nil]
    intro character isSuffix
    simp only [isSuffixLetter, Bool.or_eq_true, beq_iff_eq] at isSuffix
    rcases isSuffix with ((((rfl | rfl) | rfl) | rfl) | rfl) | rfl <;> decide
  have noSurplus : next.takeWhile (cLanguage dialect).classes.continuesIdentifier = [] :=
    ends.takeWhile fun _ isHeld => isHeld
  simp only [read, announced, List.drop_left, List.take_left, isWhole, isFraction, isExponent, suffix,
    noSurplus, List.append_nil]
  rfl

/-- A number that is a mark, digits and letters of a suffix is read as these. -/
theorem read_integer {radix : Nat} (mark : List Char) {whole : List Char}
    (announced : announcedRadix (cLanguage dialect).numbers (mark ++ (whole ++ (letters ++ next))) =
      (radix, mark.length))
    (areDigits : ∀ digit ∈ whole, isDigitOf radix digit = true)
    (inSuffix : ∀ letter ∈ letters, isSuffixLetter letter = true)
    (stops : EndsWhole radix (letters ++ next)) (ends : EndsWord next) :
    read (cLanguage dialect) (mark ++ (whole ++ (letters ++ next))) =
      { radix := radix, mark := mark, whole := whole, fraction := none, exponent := none,
        suffix := letters, overrun := false } := by
  have noFraction : fractionAt (cLanguage dialect).numbers radix (letters ++ next) = none := by
    unfold fractionAt
    split
    · rename_i rest same
      exact absurd rfl (stops '.' (by rw [same]; rfl)).2.1
    · rfl
  have noExponent : exponentAt (cLanguage dialect).numbers radix (letters ++ next) = none := by
    unfold exponentAt
    split
    · rename_i letter rest same
      have notExponent := (stops letter (by rw [same]; rfl)).2.2
      simp [notExponent]
    · rfl
  exact @read_parts dialect letters next radix mark whole none none announced areDigits
    (fun character isNext => (stops character isNext).1) noFraction noExponent inSuffix ends

theorem read_digits (areDigits : ∀ digit ∈ digits, digit.isDigit = true) (notEmpty : digits ≠ [])
    (inSuffix : ∀ letter ∈ letters, letter = 'u' ∨ letter = 'l') (ends : EndsWord next)
    (notPoint : letters = [] → next.head? ≠ some '.') :
    read (cLanguage dialect) (digits ++ (letters ++ next)) =
      { radix := 10, mark := [], whole := digits, fraction := none, exponent := none,
        suffix := letters, overrun := false } := by
  have stops := ends.digits inSuffix notPoint
  have announced : announcedRadix (cLanguage dialect).numbers (digits ++ (letters ++ next)) = (10, 0) :=
    announcedRadix_digits _ areDigits notEmpty fun character isNext => (stops character isNext).2.2.2
  refine read_integer [] announced areDigits ?_ ?_ ends
  · intro letter inLetters
    rcases inSuffix letter inLetters with rfl | rfl <;> decide
  · intro character isNext
    obtain ⟨notDigit, notPoint, notExponent, _⟩ := stops character isNext
    exact ⟨notDigit, notPoint, notExponent⟩

end NumberText

/-- Only the number zero is written with a zero in front. -/
theorem eq_zero_of_head_toDigits {value : Nat} (isZero : (Nat.toDigits 10 value).head? = some '0') :
    value = 0 := by
  induction value using Nat.strongRecOn with
  | ind value ih =>
    rcases Nat.lt_or_ge value 10 with small | large
    · rw [Nat.toDigits_of_lt_base small] at isZero
      exact Nat.digitChar_eq_zero.mp (Option.some.inj isZero)
    · obtain ⟨first, rest, digits⟩ :=
        List.exists_cons_of_ne_nil (Nat.toDigits_ne_nil (n := value / 10) (b := 10))
      rw [Nat.toDigits_of_base_le (by decide) large, digits] at isZero
      have noQuotient := ih (value / 10) (by omega) (by rw [digits]; exact isZero)
      omega

theorem integerSuffix?_spelling (suffix : IntegerSuffix) (fewLongs : suffix.longs ≤ 2) :
    NumberText.integerSuffix? suffix.spelling.toList = some suffix := by
  obtain ⟨isUnsigned, longs⟩ := suffix
  obtain rfl | rfl | rfl : longs = 0 ∨ longs = 1 ∨ longs = 2 := by
    have fewLongs : longs ≤ 2 := fewLongs
    omega
  all_goals cases isUnsigned <;> decide

theorem mem_suffix_spelling (suffix : IntegerSuffix) (fewLongs : suffix.longs ≤ 2) :
    ∀ letter ∈ suffix.spelling.toList, letter = 'u' ∨ letter = 'l' := by
  have decided : suffix.spelling.toList.all (fun letter => letter == 'u' || letter == 'l') = true := by
    obtain ⟨isUnsigned, longs⟩ := suffix
    obtain rfl | rfl | rfl : longs = 0 ∨ longs = 1 ∨ longs = 2 := by
      have fewLongs : longs ≤ 2 := fewLongs
      omega
    all_goals cases isUnsigned <;> decide
  intro letter inSpelling
  simpa using List.all_eq_true.mp decided letter inSpelling

/-- An integer that is written down has the value and the suffix it was written from. -/
theorem NumberText.judge_toDigits (forms : NumberForms) {value : Nat} {suffix : IntegerSuffix}
    (small : value ≤ 0xFFFFFFFFFFFFFFFF) (fewLongs : suffix.longs ≤ 2) :
    judge forms
      { radix := 10, mark := [], whole := Nat.toDigits 10 value, fraction := none, exponent := none,
        suffix := suffix.spelling.toList, overrun := false } = (.integer value suffix, []) := by
  have bounded : boundedNumeral 10 (Nat.toDigits 10 value) = (value, []) := by
    have isValue : numeral 10 (Nat.toDigits 10 value) = value :=
      numeral_toDigits (by decide) (by decide) value
    have fits : ¬ 0xFFFFFFFFFFFFFFFF < value := by omega
    simp [boundedNumeral, isValue, fits]
  have isValue (number : NumberText) (decimal : number.radix = 10)
      (digits : number.whole = Nat.toDigits 10 value) :
      number.integerValue forms = (value, []) := by
    unfold integerValue
    split
    · rename_i digit rest _ same _
      rw [same] at digits
      obtain rfl := eq_zero_of_head_toDigits (by rw [← digits]; rfl)
      cases digits
    · rw [decimal, digits, bounded]
  simp only [judge, isFloating, judgeInteger, integerSuffix?_spelling suffix fewLongs, isValue]
  rfl

theorem Segment.startsNumber_digit {dialect : Dialect} {first : Char} (isDigit : first.isDigit = true)
    (rest : List Char) : startsNumber (cLanguage dialect) first rest = true := by
  simp [startsNumber, cLanguage, Language.Declaration.build, isDigit]

/-- Nothing but a token begins as a number does. -/
theorem Segment.first_of_startsNumber {dialect : Dialect} {first : Char} {rest : List Char}
    {segment : Segment} (atLineStart : Bool)
    (starts : startsNumber (cLanguage dialect) first rest = true)
    (found : tokenAt? (cLanguage dialect) first rest = some segment) :
    Segment.first (cLanguage dialect) atLineStart first rest = segment := by
  have digitOrPoint : (first.isDigit || first == '.') = true := by
    simp only [startsNumber, Bool.or_eq_true, Bool.and_eq_true] at starts ⊢
    exact starts.imp_right And.left
  have notOther : ∀ other ∈ '\\' :: '#' :: '/' :: cWhiteSpace, first ≠ other := by
    have decided : ('\\' :: '#' :: '/' :: cWhiteSpace).all
        (fun other => !(other.isDigit || other == '.')) = true := by
      decide
    rintro other inList rfl
    have notStart := List.all_eq_true.mp decided first inList
    rw [digitOrPoint] at notStart
    cases notStart
  simp only [List.forall_mem_cons] at notOther
  obtain ⟨notSplice, notDirective, notSlash, notBlank⟩ := notOther
  have notBlank : first ∉ cWhiteSpace := fun isBlank => notBlank first isBlank rfl
  have notComment (second : Char) : ¬ ['/', second] <+: first :: rest := by
    simp [Ne.symm notSlash]
  exact first_of_tokenAt? atLineStart notBlank notSplice notDirective (notComment _) (notComment _)
    found

theorem ScansAs.integer {dialect : Dialect} {value : Nat} {suffix : IntegerSuffix} {next : List Char}
    (small : value ≤ 0xFFFFFFFFFFFFFFFF) (fewLongs : suffix.longs ≤ 2) (ends : EndsWord next)
    (notPoint : suffix.spelling.toList = [] → next.head? ≠ some '.') :
    ScansAs dialect (Literal.integer value suffix).spelling.toList [Word.integer value suffix]
      next := by
  have areDigits : ∀ digit ∈ Nat.toDigits 10 value, digit.isDigit = true :=
    fun digit inDigits => Nat.isDigit_of_mem_toDigits (by decide) (by decide) inDigits
  have number : NumberText.read (cLanguage dialect) _ = _ := NumberText.read_digits areDigits
    Nat.toDigits_ne_nil (mem_suffix_spelling suffix fewLongs) ends notPoint
  have judged := NumberText.judge_toDigits (cLanguage dialect).numbers small fewLongs
  have characters : (Literal.integer value suffix).spelling.toList =
      Nat.toDigits 10 value ++ suffix.spelling.toList := by
    simp [Literal.spelling]
  have spelled : (Literal.integer value suffix).spelling =
      String.ofList (Nat.toDigits 10 value ++ suffix.spelling.toList) := by
    rw [← characters, String.ofList_toList]
  rw [characters, Word.integer, spelled]
  obtain ⟨first, rest, digits⟩ :=
    List.exists_cons_of_ne_nil (Nat.toDigits_ne_nil (n := value) (b := 10))
  have isDigit := areDigits first (by simp [digits])
  rw [digits] at number judged ⊢
  rw [List.cons_append] at number
  have found : Segment.tokenAt? (cLanguage dialect) first
      (rest ++ suffix.spelling.toList ++ next) =
        some { kind := .token (.literal .integer) (some (.integer value suffix)),
               length := (first :: rest ++ suffix.spelling.toList).length, length_pos := by simp } := by
    simp [Segment.tokenAt?, Segment.numberAt?, Segment.startsNumber_digit isDigit, number, judged,
      NumberText.isFloating, NumberText.characters, NumberText.body, NumberText.pointAndFraction,
      NumberText.letterAndExponent]
  exact .token (fun atLineStart => Segment.first_of_startsNumber atLineStart
    (Segment.startsNumber_digit isDigit _) found) rfl rfl rfl

end CFrontEnd
