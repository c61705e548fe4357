import CFrontEnd.Proofs.Numbers.Floats

/-!
The floating constants of a text. A floating number that is scanned without a problem is a floating
constant of C, but for hexadecimal ones that have a point and no digit; and each constant alone is
scanned as one floating number without a problem.
-/

namespace CFrontEnd

namespace NumberText

variable {dialect : Dialect} {small large : Char} {input : List Char}

/-! ## From numbers to constants -/

namespace IsFloat

variable {number : NumberText}

theorem binaryExponent (isFloat : number.IsFloat 'p' 'P') :
    IsBinaryExponent (letterAndExponent number.exponent) := by
  have fits := isFloat.isBinary isFloat.isRadix.eq_sixteen
  obtain ⟨⟨letter, digits⟩, has⟩ := Option.isSome_iff_exists.mp fits.isSome
  obtain ⟨value, isExponent⟩ := isFloat.isExponent letter digits has
  rw [has]
  have isValue := exponentValue_eq has isExponent
  exact ⟨value, isExponent, isValue ▸ fits.low, isValue ▸ fits.high⟩

theorem significand_spelled (isFloat : number.IsFloat small large) (hasDigits : number.significand ≠ []) :
    IsSignificand (isDigitOf number.radix) (number.whole ++ pointAndFraction number.fraction) :=
  isSignificand_iff.mpr ⟨_, _, rfl, hasDigits, isFloat.areDigits⟩

theorem constant_decimal (isFloat : number.IsFloat 'e' 'E') (noMark : number.mark = [])
    (hasDigits : number.significand ≠ []) : IsFloatingConstant number.characters := by
  have isSignificand := isFloat.significand_spelled hasDigits
  rw [isFloat.isRadix.eq_ten] at isSignificand
  simp only [characters, body, noMark, List.nil_append, List.append_assoc]
  rw [← List.append_assoc]
  rcases isFloat.exponent_cases with ⟨fraction, isFraction, none, _⟩ |
    ⟨letter, digits, value, has, isExponent⟩
  · rw [none, letterAndExponent, List.nil_append]
    exact .pointed isSignificand (by simp [isFraction, pointAndFraction]) isFloat.isSuffix
  · rw [has]
    exact .decimal isSignificand isExponent isFloat.isSuffix

theorem constant_hexadecimal (isFloat : number.IsFloat 'p' 'P') {mark : Char}
    (isMark : mark = 'x' ∨ mark = 'X') (marked : number.mark = ['0', mark])
    (hasPlace : number.whole ≠ [] ∨ number.fraction.isSome = true) :
    IsFloatingConstant number.characters ∨ LacksDigits number.characters := by
  by_cases hasDigits : number.significand ≠ []
  · have isSignificand := isFloat.significand_spelled hasDigits
    rw [isFloat.isRadix.eq_sixteen] at isSignificand
    simp only [characters, body, marked, List.cons_append, List.nil_append, List.append_assoc]
    rw [← List.append_assoc]
    exact .inl (.hexadecimal isMark isSignificand isFloat.binaryExponent isFloat.isSuffix)
  · obtain ⟨noWhole, noFraction⟩ := List.append_eq_nil_iff.mp (not_not.mp hasDigits)
    obtain ⟨fraction, isFraction⟩ :=
      Option.isSome_iff_exists.mp (hasPlace.resolve_left (not_not_intro noWhole))
    rw [isFraction, Option.getD_some] at noFraction
    subst noFraction
    simp only [characters, body, marked, noWhole, isFraction, pointAndFraction, List.cons_append,
      List.nil_append]
    exact .inr (.mk isMark isFloat.binaryExponent isFloat.isSuffix)

end IsFloat

theorem isFloat_of_read {radix length : Nat} (isRadix : IsFloatRadix radix small large)
    (announced : announcedRadix (cLanguage dialect).numbers input = (radix, length))
    (isFloating : (read (cLanguage dialect) input).isFloating = true)
    (clean : ((read (cLanguage dialect) input).judge (cLanguage dialect).numbers).2 = []) :
    (read (cLanguage dialect) input).IsFloat small large := by
  obtain ⟨noOverrun, isSuffix, isBinary⟩ := (judge_floating_clean isFloating).mp clean
  obtain ⟨sameRadix, _, areDigits⟩ := read_announced announced
  refine ⟨sameRadix ▸ isRadix, ?_, ?_, isFloating, isBinary, isSuffix, noOverrun⟩
  · refine List.forall_mem_append.mpr ⟨sameRadix ▸ areDigits, ?_⟩
    cases found : (read (cLanguage dialect) input).fraction with
    | none => simp
    | some fraction =>
      rw [sameRadix]
      simp only [read, announced] at found
      exact (fractionAt_some found).2
  · intro letter digits found
    simp only [read, announced] at found
    exact exponentAt_some isRadix found

/-- A binary number has neither a fraction nor an exponent. -/
theorem notFloating_of_binary {length : Nat}
    (announced : announcedRadix (cLanguage dialect).numbers input = (2, length)) :
    (read (cLanguage dialect) input).isFloating = false := by
  have noFraction (input : List Char) : fractionAt (cLanguage dialect).numbers 2 input = none := by
    unfold fractionAt
    split <;> rfl
  have noExponent (input : List Char) : exponentAt (cLanguage dialect).numbers 2 input = none := by
    unfold exponentAt
    split <;> rfl
  simp [read, announced, isFloating, noFraction, noExponent]

theorem significand_of_startsNumber {first : Char} {rest : List Char}
    (announced : announcedRadix (cLanguage dialect).numbers (first :: rest) = (10, 0))
    (starts : Segment.startsNumber (cLanguage dialect) first rest = true) :
    (read (cLanguage dialect) (first :: rest)).significand ≠ [] := by
  change (first.isDigit || (first == '.' && rest.head?.any Char.isDigit)) = true at starts
  simp only [significand, read, announced, List.drop_zero]
  by_cases isDigit : first.isDigit = true
  · have isWhole : (first :: rest).takeWhile (isDigitOf 10) = first :: rest.takeWhile Char.isDigit :=
      List.takeWhile_cons_of_pos isDigit
    rw [isWhole]
    exact List.cons_ne_nil _ _
  · have starts := (Bool.or_eq_true_iff.mp starts).resolve_left isDigit
    rw [Bool.and_eq_true, beq_iff_eq] at starts
    obtain ⟨rfl, hasDigit⟩ := starts
    obtain ⟨digit, isSecond, isDigit⟩ := (Option.any_eq_true _ _).mp hasDigit
    obtain ⟨rest, rfl⟩ := List.head?_eq_some_iff.mp isSecond
    have hasFractions : (cLanguage dialect).numbers.fraction = true := rfl
    have noWhole : ('.' :: digit :: rest).takeWhile (isDigitOf 10) = [] := rfl
    have isDigit : isDigitOf 10 digit = true := isDigit
    simp [noWhole, fractionAt, hasFractions, isDigit]

theorem place_of_hexadecimal
    (announced : announcedRadix (cLanguage dialect).numbers input = (16, 2)) :
    (read (cLanguage dialect) input).whole ≠ [] ∨
      (read (cLanguage dialect) input).fraction.isSome = true := by
  obtain ⟨mark, third, rest, rfl, isPlace⟩ : ∃ mark third rest, input = '0' :: mark :: third :: rest ∧
      (isHexDigit third = true ∨ third = '.') := by
    unfold announcedRadix at announced
    split at announced
    · rename_i mark third rest
      refine ⟨mark, third, rest, rfl, ?_⟩
      split at announced
      · rename_i isHex
        simp only [Bool.and_eq_true, Bool.or_eq_true, beq_iff_eq] at isHex
        exact isHex.2.imp_right And.left
      · split at announced <;> cases announced
    · cases announced
  simp only [read, announced, List.drop_succ_cons, List.drop_zero]
  rcases isPlace with isDigit | rfl
  · have isDigit : isDigitOf 16 third = true := isDigit
    rw [List.takeWhile_cons_of_pos isDigit]
    exact .inl (List.cons_ne_nil _ _)
  · have hasFractions : (cLanguage dialect).numbers.fraction = true := rfl
    have noWhole : ('.' :: rest).takeWhile (isDigitOf 16) = [] := rfl
    simp [noWhole, fractionAt, hasFractions]

theorem constant_of_read {first : Char} {rest : List Char}
    (starts : Segment.startsNumber (cLanguage dialect) first rest = true)
    (isFloating : (read (cLanguage dialect) (first :: rest)).isFloating = true)
    (clean : ((read (cLanguage dialect) (first :: rest)).judge (cLanguage dialect).numbers).2 = []) :
    let number := read (cLanguage dialect) (first :: rest)
    IsFloatingConstant number.characters ∨ LacksDigits number.characters := by
  rcases Segment.announcedRadix_cases (cLanguage dialect).numbers (first :: rest) with announced |
    ⟨mark, rest, same, ⟨isMark, announced⟩ | ⟨_, _, announced⟩⟩
  · have isFloat := isFloat_of_read .decimal announced isFloating clean
    exact .inl (isFloat.constant_decimal (read_announced announced).2.1
      (significand_of_startsNumber announced starts))
  · have isFloat := isFloat_of_read .hexadecimal announced isFloating clean
    have marked := (read_announced announced).2.1
    rw [same] at isFloat marked announced ⊢
    exact isFloat.constant_hexadecimal isMark marked (place_of_hexadecimal announced)
  · rw [notFloating_of_binary announced] at isFloating
    cases isFloating

/-! ## From constants to numbers -/

/-- Digits, a point or an exponent announce no other radix. -/
theorem IsFloat.announced_decimal {number : NumberText} (isFloat : number.IsFloat 'e' 'E')
    (noMark : number.mark = []) (forms : NumberForms) (next : List Char) :
    announcedRadix forms (number.characters ++ next) = (10, 0) := by
  have areDigits := (List.forall_mem_append.mp isFloat.areDigits).1
  rw [isFloat.isRadix.eq_ten] at areDigits
  have heads : ∀ character, (number.behindWhole next).head? = some character →
      character ≠ '0' ∧ character ∉ ['x', 'X', 'b', 'B'] := by
    intro character isNext
    rcases isFloat.head_behindWhole isNext with rfl | rfl | rfl <;> decide
  rw [characters_append, noMark, List.nil_append]
  by_cases noWhole : number.whole = []
  · rw [noWhole, List.nil_append]
    unfold announcedRadix
    split
    · rename_i same
      exact absurd rfl (heads '0' (by rw [same]; rfl)).1
    · rfl
  · exact announcedRadix_digits forms areDigits noWhole fun character isNext =>
      (heads character isNext).2

theorem IsFloat.announced_hexadecimal {number : NumberText} (isFloat : number.IsFloat 'p' 'P')
    {mark : Char} (isMark : mark = 'x' ∨ mark = 'X') (marked : number.mark = ['0', mark])
    (hasPlace : number.whole ≠ [] ∨ number.fraction.isSome = true) (next : List Char) :
    announcedRadix (cLanguage dialect).numbers (number.characters ++ next) = (16, 2) := by
  have areDigits := (List.forall_mem_append.mp isFloat.areDigits).1
  rw [isFloat.isRadix.eq_sixteen] at areDigits
  obtain ⟨third, rest, same, isPlace⟩ : ∃ third rest,
      number.whole ++ number.behindWhole next = third :: rest ∧
        (isHexDigit third = true ∨ third = '.') := by
    cases isWhole : number.whole with
    | cons digit digits =>
      rw [isWhole] at areDigits
      exact ⟨digit, _, rfl, .inl (areDigits digit List.mem_cons_self)⟩
    | nil =>
      obtain ⟨fraction, isFraction⟩ :=
        Option.isSome_iff_exists.mp (hasPlace.resolve_left (not_not_intro isWhole))
      rw [List.nil_append, behindWhole, isFraction]
      exact ⟨'.', _, rfl, .inr rfl⟩
  have hasForms : (cLanguage dialect).numbers.hexadecimal = true ∧
      (cLanguage dialect).numbers.fraction = true := ⟨rfl, rfl⟩
  rw [characters_append, marked, same]
  simp [announcedRadix, isMark, isPlace, hasForms]

/-- The number that a text is written from. -/
structure Spells (number : NumberText) (text : List Char) : Prop where
  characters_eq : number.characters = text
  isFloating : number.isFloating = true
  clean (forms : NumberForms) : (number.judge forms).2 = []
  read_eq (dialect : Dialect) {next : List Char} (ends : EndsWord next) :
    read (cLanguage dialect) (text ++ next) = number

theorem IsFloat.spells_decimal {number : NumberText} (isFloat : number.IsFloat 'e' 'E')
    (noMark : number.mark = []) : number.Spells number.characters where
  characters_eq := rfl
  isFloating := isFloat.isFloating
  clean := isFloat.clean
  read_eq dialect next ends := by
    refine isFloat.read_eq ends ?_
    rw [isFloat.announced_decimal noMark, isFloat.isRadix.eq_ten, noMark]
    rfl

theorem IsFloat.spells_hexadecimal {number : NumberText} (isFloat : number.IsFloat 'p' 'P')
    {mark : Char} (isMark : mark = 'x' ∨ mark = 'X') (marked : number.mark = ['0', mark])
    (hasPlace : number.whole ≠ [] ∨ number.fraction.isSome = true) :
    number.Spells number.characters where
  characters_eq := rfl
  isFloating := isFloat.isFloating
  clean := isFloat.clean
  read_eq dialect next ends := by
    refine isFloat.read_eq ends ?_
    rw [isFloat.announced_hexadecimal isMark marked hasPlace, isFloat.isRadix.eq_sixteen, marked]
    rfl

theorem exists_spells_hexadecimal {mark : Char} {whole suffix exponent : List Char}
    {fraction : Option (List Char)} (isMark : mark = 'x' ∨ mark = 'X')
    (areDigits : ∀ digit ∈ whole ++ fraction.getD [], isHexDigit digit = true)
    (hasPlace : whole ≠ [] ∨ fraction.isSome = true)
    (isExponent : IsBinaryExponent exponent) (isSuffix : suffix ∈ floatSuffixes) :
    ∃ number : NumberText, number.Spells
      ('0' :: mark :: (whole ++ pointAndFraction fraction ++ (exponent ++ suffix))) := by
  obtain ⟨value, isExponent, low, high⟩ := isExponent
  obtain ⟨letter, digits, rfl⟩ := isExponent.exists_letter
  let number : NumberText :=
    { radix := 16, mark := ['0', mark], whole := whole, fraction := fraction,
      exponent := some (letter, digits), suffix := suffix, overrun := false }
  have isValue : number.exponentValue = value := exponentValue_eq rfl isExponent
  have isFloat : number.IsFloat 'p' 'P' :=
    { isRadix := .hexadecimal
      areDigits := areDigits
      isExponent := by
        rintro _ _ ⟨⟩
        exact ⟨value, isExponent⟩
      isFloating := by simp [number, isFloating]
      isBinary := fun _ => ⟨rfl, isValue ▸ low, isValue ▸ high⟩
      isSuffix := isSuffix
      noOverrun := rfl }
  have spells := isFloat.spells_hexadecimal isMark rfl hasPlace
  simp only [characters, body, letterAndExponent, number, List.cons_append, List.nil_append,
    List.append_assoc] at spells
  exact ⟨number, by simpa using spells⟩

theorem exists_spells_decimal {whole suffix : List Char} {fraction : Option (List Char)}
    {exponent : Option (Char × List Char)}
    (areDigits : ∀ digit ∈ whole ++ fraction.getD [], digit.isDigit = true)
    (isExponent : ∀ letter digits, exponent = some (letter, digits) →
      ∃ value, IsExponent 'e' 'E' (letter :: digits) value)
    (isFloating : (fraction.isSome || exponent.isSome) = true) (isSuffix : suffix ∈ floatSuffixes) :
    ∃ number : NumberText, number.Spells
      (whole ++ pointAndFraction fraction ++ (letterAndExponent exponent ++ suffix)) := by
  let number : NumberText :=
    { radix := 10, mark := [], whole := whole, fraction := fraction, exponent := exponent,
      suffix := suffix, overrun := false }
  have isFloat : number.IsFloat 'e' 'E' :=
    { isRadix := .decimal
      areDigits := areDigits
      isExponent := isExponent
      isFloating := isFloating
      isBinary := fun isHex => absurd (show (10 : Nat) = 16 from isHex) (by decide)
      isSuffix := isSuffix
      noOverrun := rfl }
  have spells := isFloat.spells_decimal rfl
  simp only [characters, body, number, List.nil_append, List.append_assoc] at spells
  exact ⟨number, by simpa using spells⟩

theorem exists_spells {text : List Char} (isText : IsFloatingConstant text ∨ LacksDigits text) :
    ∃ number : NumberText, number.Spells text := by
  rcases isText with isConstant | lacksDigits
  · cases isConstant with
    | pointed isSignificand hasPoint isSuffix =>
      obtain ⟨whole, fraction, rfl, _, areDigits⟩ := isSignificand_iff.mp isSignificand
      have hasFraction : fraction.isSome = true := by
        cases fraction with
        | some => rfl
        | none =>
          simp only [pointAndFraction, Option.getD_none, List.append_nil] at hasPoint areDigits
          exact absurd (areDigits '.' hasPoint) (by decide)
      exact @exists_spells_decimal whole _ fraction none areDigits (by simp) (by simp [hasFraction])
        isSuffix
    | decimal isSignificand isExponent isSuffix =>
      obtain ⟨whole, fraction, rfl, _, areDigits⟩ := isSignificand_iff.mp isSignificand
      obtain ⟨letter, digits, rfl⟩ := isExponent.exists_letter
      refine @exists_spells_decimal whole _ fraction (some (letter, digits)) areDigits ?_ (by simp)
        isSuffix
      rintro _ _ ⟨⟩
      exact ⟨_, isExponent⟩
    | hexadecimal isMark isSignificand isExponent isSuffix =>
      obtain ⟨whole, fraction, rfl, notEmpty, areDigits⟩ := isSignificand_iff.mp isSignificand
      refine exists_spells_hexadecimal isMark areDigits ?_ isExponent isSuffix
      cases fraction with
      | some => exact .inr rfl
      | none => exact .inl (by simpa using notEmpty)
  · cases lacksDigits with
    | mk isMark isExponent isSuffix =>
      exact @exists_spells_hexadecimal _ [] _ _ (some []) isMark (by simp) (.inr rfl) isExponent
        isSuffix

end NumberText

/-! ## Tokens -/

section Tokens

variable {dialect : Dialect}

theorem NumberText.exists_floating (number : NumberText) (isFloating : number.isFloating = true)
    (forms : NumberForms) :
    ∃ value suffix, (number.judge forms).1 = .floating value suffix := by
  unfold judge
  rw [isFloating]
  cases number.overrun <;> exact ⟨_, _, rfl⟩

/-- A number whose text is a constant is as good in its place as it is alone. -/
theorem NumberText.clean_of_constant {input : List Char}
    (isText : IsFloatingConstant (read (cLanguage dialect) input).characters ∨
      LacksDigits (read (cLanguage dialect) input).characters) :
    ((read (cLanguage dialect) input).judge (cLanguage dialect).numbers).2 = [] := by
  obtain ⟨number, spells⟩ := exists_spells isText
  have begins : StartsInLine (read (cLanguage dialect) input).characters input :=
    characters_start rfl rfl input
  have same := @read_cutAt dialect '\n' [] input _ (.ofBlank dialect (by decide)) (Nat.le_refl _)
  have ends : EndsWord ['\n'] := by
    rintro _ ⟨⟩
    decide
  rw [cutAt, begins.take_length, spells.read_eq dialect ends] at same
  rw [← same]
  exact spells.clean _

theorem IsSignificand.starts {significand : List Char}
    (isSignificand : IsSignificand Char.isDigit significand) (behind : List Char) :
    ∃ first rest, significand ++ behind = first :: rest ∧
      Segment.startsNumber (cLanguage dialect) first rest = true := by
  cases isSignificand with
  | plain notEmpty areDigits =>
    obtain ⟨first, rest, rfl⟩ := List.exists_cons_of_ne_nil notEmpty
    exact ⟨first, _, rfl, Segment.startsNumber_digit (areDigits first List.mem_cons_self) _⟩
  | @pointed whole fraction notEmpty areDigits =>
    cases whole with
    | cons first rest =>
      exact ⟨first, _, rfl, Segment.startsNumber_digit (areDigits first List.mem_cons_self) _⟩
    | nil =>
      obtain ⟨digit, rest, rfl⟩ := List.exists_cons_of_ne_nil notEmpty
      have isDigit : digit.isDigit = true := areDigits digit List.mem_cons_self
      exact ⟨'.', _, rfl, isDigit⟩

/-- The floating numbers that nothing is recorded about are the floating constants and those that lack
digits. -/
theorem clean_floating_iff {buffer : SourceBuffer} {after : Diagnostics} {tokens : TokenStream}
    {token : Token} (tokenized : tokenize (cLanguage dialect) buffer .empty = (tokens, after))
    (inText : token ∈ tokens.body) (isFloating : token.kind = .literal .floating) :
    (∀ problem ∈ after.toList, problem.location.offset ≠ token.location.offset) ↔
      IsFloatingConstant token.lexeme.toList ∨ LacksDigits token.lexeme.toList := by
  obtain ⟨first, rest, starts, isKind, lexeme, _, noneRecorded, noProblems⟩ :=
    exists_number_of_tokenize tokenized inText isFloating (.inr rfl)
  rw [lexeme]
  constructor
  · intro clean
    exact NumberText.constant_of_read starts (NumberText.kind_eq_floating.mp isKind.symm)
      (noProblems clean)
  · intro isText problem inAfter sameOffset
    cases noneRecorded (NumberText.clean_of_constant isText) problem inAfter sameOffset

theorem startsNumber_of_constant (dialect : Dialect) {text : List Char}
    (isText : IsFloatingConstant text ∨ LacksDigits text) :
    ∃ first rest, text = first :: rest ∧
      Segment.startsNumber (cLanguage dialect) first rest = true := by
  have isZero (rest : List Char) : Segment.startsNumber (cLanguage dialect) '0' rest = true :=
    Segment.startsNumber_digit (by decide) rest
  rcases isText with isConstant | lacksDigits
  · cases isConstant with
    | pointed isSignificand => exact isSignificand.starts _
    | decimal isSignificand => exact isSignificand.starts _
    | hexadecimal => exact ⟨'0', _, rfl, isZero _⟩
  · cases lacksDigits with
    | mk => exact ⟨'0', _, rfl, isZero _⟩

theorem tokenize_floatingConstant {text : String}
    (isText : IsFloatingConstant text.toList ∨ LacksDigits text.toList) (name : String)
    (diagnostics : Diagnostics) :
    ∃ tokens value suffix,
      tokenize (cLanguage dialect) ⟨name, text⟩ diagnostics = (tokens, diagnostics) ∧
      tokens.body.toList.map Token.word =
        [⟨.literal .floating, text, some (.floating value suffix)⟩] := by
  obtain ⟨number, spells⟩ := NumberText.exists_spells isText
  obtain ⟨first, rest, isFirst, starts⟩ := startsNumber_of_constant dialect isText
  have ends : EndsWord [] := by
    rintro _ ⟨⟩
  have read := spells.read_eq dialect ends
  have whole := spells.characters_eq
  rw [List.append_nil, isFirst] at read
  rw [isFirst] at whole
  obtain ⟨value, suffix, isValue⟩ := number.exists_floating spells.isFloating (cLanguage dialect).numbers
  have judged : number.judge (cLanguage dialect).numbers = (.floating value suffix, []) :=
    Prod.ext isValue (spells.clean _)
  obtain ⟨tokens, tokenized, isWord⟩ :=
    tokenize_number ⟨name, text⟩ isFirst starts read whole judged diagnostics
  rw [NumberText.kind_eq_floating.mpr spells.isFloating] at isWord
  refine ⟨tokens, value, suffix, ?_, isWord⟩
  simpa [Diagnostics.append] using tokenized

/-- Nothing is recorded about a floating number just if it is a floating constant of C, or would be one
with a digit beside its point behind `0x`. Each of these texts alone is scanned as one floating number, and
nothing is recorded. -/
theorem tokenize_floats (dialect : Dialect) :
    (∀ buffer tokens after, tokenize (cLanguage dialect) buffer .empty = (tokens, after) →
      ∀ token ∈ tokens.body, token.kind = .literal .floating →
        ((∀ problem ∈ after.toList, problem.location.offset ≠ token.location.offset) ↔
          IsFloatingConstant token.lexeme.toList ∨ LacksDigits token.lexeme.toList)) ∧
    ∀ text : String, IsFloatingConstant text.toList ∨ LacksDigits text.toList →
      ∀ name diagnostics, ∃ tokens value suffix,
        tokenize (cLanguage dialect) ⟨name, text⟩ diagnostics = (tokens, diagnostics) ∧
        tokens.body.toList.map Token.word =
          [⟨.literal .floating, text, some (.floating value suffix)⟩] :=
  ⟨fun _ _ _ tokenized _ inText isFloating => clean_floating_iff tokenized inText isFloating,
    fun _ isText name diagnostics => tokenize_floatingConstant isText name diagnostics⟩

/-- A hexadecimal constant is scanned alone, and is found to be one in its token. -/
theorem tokenize_floats_hexadecimal :
    IsFloatingConstant "0x1.8p-3F".toList ∧
    ∃ tokens token, tokenize (cLanguage gnuC17) ⟨"<input>", "0x1.8p-3F"⟩ .empty = (tokens, .empty) ∧
      tokens.body = #[token] ∧ token.kind = .literal .floating ∧
      ((∀ problem ∈ Diagnostics.empty.toList, problem.location.offset ≠ token.location.offset) ↔
        IsFloatingConstant token.lexeme.toList ∨ LacksDigits token.lexeme.toList) := by
  have isSignificand : IsSignificand isHexDigit (['1'] ++ '.' :: ['8']) :=
    .pointed (by decide) (List.all_eq_true.mp (by decide))
  have isExponent : IsBinaryExponent ['p', '-', '3'] :=
    ⟨_, .negative (.inl rfl) (by decide) (List.all_eq_true.mp (by decide)), by decide, by decide⟩
  have isConstant : IsFloatingConstant "0x1.8p-3F".toList :=
    .hexadecimal (.inl rfl) isSignificand isExponent (by decide)
  obtain ⟨fromTokens, fromTexts⟩ := tokenize_floats gnuC17
  obtain ⟨tokens, value, suffix, tokenized, areWords⟩ :=
    fromTexts "0x1.8p-3F" (.inl isConstant) "<input>" .empty
  obtain ⟨token, single, isWord⟩ := List.map_eq_singleton_iff.mp areWords
  have isBody : tokens.body = #[token] := Array.toList_inj.mp single
  have isFloating := (Token.word_eq_mk.mp isWord).1
  exact ⟨isConstant, tokens, token, tokenized, isBody, isFloating,
    fromTokens _ _ _ tokenized token (by simp [isBody]) isFloating⟩

/-- A floating number without a problem that is no floating constant. -/
theorem not_tokenize_floats_point :
    ∃ tokens after token, tokenize (cLanguage gnuC17) ⟨"<input>", "0x.p1"⟩ .empty = (tokens, after) ∧
      token ∈ tokens.body ∧ token.kind = .literal .floating ∧
      (∀ problem ∈ after.toList, problem.location.offset ≠ token.location.offset) ∧
      ¬ IsFloatingConstant token.lexeme.toList := by
  have isExponent : IsBinaryExponent ['p', '1'] :=
    ⟨_, .unsigned (.inl rfl) (by decide) (List.all_eq_true.mp (by decide)), by decide, by decide⟩
  have lacksDigits : LacksDigits "0x.p1".toList := .mk (.inl rfl) isExponent (by decide)
  obtain ⟨tokens, value, suffix, tokenized, areWords⟩ :=
    @tokenize_floatingConstant gnuC17 "0x.p1" (.inr lacksDigits) "<input>" .empty
  obtain ⟨token, single, isWord⟩ := List.map_eq_singleton_iff.mp areWords
  have isBody : tokens.body = #[token] := Array.toList_inj.mp single
  obtain ⟨isFloating, isLexeme, _⟩ := Token.word_eq_mk.mp isWord
  refine ⟨tokens, .empty, token, tokenized, by simp [isBody], isFloating,
    fun _ inNone => absurd inNone List.not_mem_nil, ?_⟩
  rw [isLexeme]
  exact lacksDigits.notConstant

end Tokens

end CFrontEnd
