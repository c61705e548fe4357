import CFrontEnd.Proofs.Scan.Chains
import CFrontEnd.Proofs.Scan.Origins
import CFrontEnd.Scan.Number

/-!
What an integer constant of C is: digits in one of four radixes, and the letters of a suffix. The scanner
reads a zero in front of octal digits as one of the digits, and learns of the radix afterwards.
-/

namespace CFrontEnd

/-- Binary integers came with C23, and earlier in GNU C. -/
def Dialect.HasBinaryIntegers (dialect : Dialect) : Prop :=
  dialect.gnu = true ∨ Standard.c23 ≤ dialect.standard

/-- The digits of a number in a radix, behind the mark of the radix. -/
inductive IsNumeral (dialect : Dialect) : List Char → List Char → Nat → Prop
  | zero : IsNumeral dialect [] ['0'] 10
  | decimal {first : Char} {rest : List Char} (notZero : first ≠ '0')
      (areDigits : ∀ digit ∈ first :: rest, digit.isDigit = true) :
      IsNumeral dialect [] (first :: rest) 10
  | octal {digits : List Char} (notEmpty : digits ≠ [])
      (areDigits : ∀ digit ∈ digits, isOctalDigit digit = true) : IsNumeral dialect ['0'] digits 8
  | hexadecimal {mark : Char} {digits : List Char} (isMark : mark = 'x' ∨ mark = 'X')
      (notEmpty : digits ≠ []) (areDigits : ∀ digit ∈ digits, isHexDigit digit = true) :
      IsNumeral dialect ['0', mark] digits 16
  | binary {mark : Char} {digits : List Char} (isMark : mark = 'b' ∨ mark = 'B')
      (has : dialect.HasBinaryIntegers) (notEmpty : digits ≠ [])
      (areDigits : ∀ digit ∈ digits, isBinaryDigit digit = true) :
      IsNumeral dialect ['0', mark] digits 2

/-- The letters for `long` and `long long`, and how often they say so. -/
def longSpellings : List (List Char × Nat) :=
  [([], 0), (['l'], 1), (['L'], 1), (['l', 'l'], 2), (['L', 'L'], 2)]

/-- At most one `u`, on either side of the letters for `long`. -/
inductive SpellsSuffix : List Char → IntegerSuffix → Prop
  | signed {letters : List Char} {longs : Nat} (known : (letters, longs) ∈ longSpellings) :
      SpellsSuffix letters ⟨false, longs⟩
  | unsignedFirst {letter : Char} {letters : List Char} {longs : Nat}
      (isUnsigned : letter = 'u' ∨ letter = 'U') (known : (letters, longs) ∈ longSpellings) :
      SpellsSuffix (letter :: letters) ⟨true, longs⟩
  | unsignedLast {letter : Char} {letters : List Char} {longs : Nat}
      (isUnsigned : letter = 'u' ∨ letter = 'U') (known : (letters, longs) ∈ longSpellings) :
      SpellsSuffix (letters ++ [letter]) ⟨true, longs⟩

/-- The text of an integer constant, with its value and its suffix. -/
inductive IsIntegerConstant (dialect : Dialect) : List Char → Nat → IntegerSuffix → Prop
  | mk {mark digits letters : List Char} {radix : Nat} {suffix : IntegerSuffix}
      (isNumeral : IsNumeral dialect mark digits radix) (spells : SpellsSuffix letters suffix) :
      IsIntegerConstant dialect (mark ++ (digits ++ letters)) (numeral radix digits) suffix

/-! ## Suffixes -/

namespace NumberText

theorem takeUnsigned_eq (letters : List Char) :
    takeUnsigned letters = (false, letters) ∨ ∃ letter rest, (letter = 'u' ∨ letter = 'U') ∧
      letters = letter :: rest ∧ takeUnsigned letters = (true, rest) := by
  unfold takeUnsigned
  split
  · exact .inr ⟨_, _, .inl rfl, rfl, rfl⟩
  · exact .inr ⟨_, _, .inr rfl, rfl, rfl⟩
  · exact .inl rfl

theorem takeLongs_eq (letters : List Char) :
    ∃ front longs rest, (front, longs) ∈ longSpellings ∧ letters = front ++ rest ∧
      takeLongs letters = (longs, rest) := by
  unfold takeLongs
  split
  · exact ⟨['l', 'l'], 2, _, by decide, rfl, rfl⟩
  · exact ⟨['L', 'L'], 2, _, by decide, rfl, rfl⟩
  · exact ⟨['l'], 1, _, by decide, rfl, rfl⟩
  · exact ⟨['L'], 1, _, by decide, rfl, rfl⟩
  · exact ⟨[], 0, _, by decide, rfl, rfl⟩

theorem integerSuffix?_eq_some {letters : List Char} {suffix : IntegerSuffix} :
    integerSuffix? letters = some suffix ↔ SpellsSuffix letters suffix := by
  constructor
  · intro isSuffix
    rcases takeUnsigned_eq letters with isSigned | ⟨letter, rest, isUnsigned, rfl, isFirst⟩
    · obtain ⟨front, longs, rest, known, rfl, isLongs⟩ := takeLongs_eq letters
      rcases takeUnsigned_eq rest with noLast | ⟨letter, last, isUnsigned, rfl, isLast⟩
      · cases rest with
        | nil =>
          simp only [integerSuffix?, isSigned, isLongs, noLast] at isSuffix
          rw [← Option.some.inj isSuffix, List.append_nil]
          exact .signed known
        | cons => simp [integerSuffix?, isSigned, isLongs, noLast] at isSuffix
      · cases last with
        | nil =>
          simp only [integerSuffix?, isSigned, isLongs, isLast] at isSuffix
          rw [← Option.some.inj isSuffix]
          exact .unsignedLast isUnsigned known
        | cons => simp [integerSuffix?, isSigned, isLongs, isLast] at isSuffix
    · obtain ⟨front, longs, rest, known, rfl, isLongs⟩ := takeLongs_eq rest
      cases rest with
      | nil =>
        simp only [integerSuffix?, isFirst, isLongs] at isSuffix
        rw [← Option.some.inj isSuffix, List.append_nil]
        exact .unsignedFirst isUnsigned known
      | cons => simp [integerSuffix?, isFirst, isLongs] at isSuffix
  · intro spells
    -- There are finitely many spellings of the length, each with the letter for unsigned in
    -- front, behind or absent.
    have signed : ∀ entry ∈ longSpellings, integerSuffix? entry.1 = some ⟨false, entry.2⟩ := by decide
    have unsigned : ∀ entry ∈ longSpellings,
        (integerSuffix? ('u' :: entry.1) = some ⟨true, entry.2⟩ ∧
          integerSuffix? ('U' :: entry.1) = some ⟨true, entry.2⟩) ∧
        integerSuffix? (entry.1 ++ ['u']) = some ⟨true, entry.2⟩ ∧
          integerSuffix? (entry.1 ++ ['U']) = some ⟨true, entry.2⟩ := by
      decide
    cases spells with
    | signed known => exact signed _ known
    | unsignedFirst isUnsigned known =>
      obtain ⟨⟨isSmall, isLarge⟩, _⟩ := unsigned _ known
      rcases isUnsigned with rfl | rfl
      · exact isSmall
      · exact isLarge
    | unsignedLast isUnsigned known =>
      obtain ⟨_, isSmall, isLarge⟩ := unsigned _ known
      rcases isUnsigned with rfl | rfl
      · exact isSmall
      · exact isLarge

end NumberText

theorem SpellsSuffix.mem {letters : List Char} {suffix : IntegerSuffix}
    (spells : SpellsSuffix letters suffix) : ∀ letter ∈ letters, letter ∈ ['u', 'U', 'l', 'L'] := by
  have decided : ∀ entry ∈ longSpellings, entry.1 ⊆ ['u', 'U', 'l', 'L'] := by decide
  have isLetter {letter : Char} (isUnsigned : letter = 'u' ∨ letter = 'U') :
      letter ∈ ['u', 'U', 'l', 'L'] := by
    rcases isUnsigned with rfl | rfl <;> decide
  cases spells with
  | signed known => exact decided _ known
  | unsignedFirst isUnsigned known =>
    exact List.forall_mem_cons.mpr ⟨isLetter isUnsigned, decided _ known⟩
  | unsignedLast isUnsigned known =>
    exact List.forall_mem_append.mpr
      ⟨decided _ known, List.forall_mem_singleton.mpr (isLetter isUnsigned)⟩

/-! ## Values -/

namespace NumberText

theorem boundedNumeral_eq {radix : Nat} {digits : List Char} (notEmpty : digits ≠ []) :
    boundedNumeral radix digits =
      if numeral radix digits < 2 ^ 64 then (numeral radix digits, []) else (0, [.integerTooLarge]) := by
  have someDigits : digits.isEmpty = false := List.isEmpty_eq_false_iff.mpr notEmpty
  simp only [boundedNumeral, someDigits, Bool.false_or, decide_eq_true_eq]
  by_cases fits : numeral radix digits < 2 ^ 64
  · rw [if_pos fits, if_neg (by omega)]
  · rw [if_neg fits, if_pos (by omega)]

theorem boundedNumeral_clean {radix : Nat} {digits : List Char}
    (clean : (boundedNumeral radix digits).2 = []) :
    digits ≠ [] ∧ numeral radix digits < 2 ^ 64 ∧
      (boundedNumeral radix digits).1 = numeral radix digits := by
  have notEmpty : digits ≠ [] := by
    rintro rfl
    cases clean
  rw [boundedNumeral_eq notEmpty] at clean ⊢
  split at clean
  · rename_i fits
    exact ⟨notEmpty, fits, if_pos fits ▸ rfl⟩
  · cases clean

theorem judge_integer {forms : NumberForms} {number : NumberText} {suffix : IntegerSuffix}
    (notFloating : number.isFloating = false) (notOverrun : number.overrun = false)
    (isSuffix : integerSuffix? number.suffix = some suffix) :
    number.judge forms =
      (.integer (number.integerValue forms).1 suffix, (number.integerValue forms).2) := by
  simp [judge, notFloating, notOverrun, judgeInteger, isSuffix]

theorem judge_clean {forms : NumberForms} {number : NumberText} (notFloating : number.isFloating = false)
    (clean : (number.judge forms).2 = []) :
    ∃ suffix, SpellsSuffix number.suffix suffix ∧ (number.integerValue forms).2 = [] ∧
      (number.judge forms).1 = .integer (number.integerValue forms).1 suffix := by
  cases overrun : number.overrun with
  | true => simp [judge, notFloating, overrun] at clean
  | false =>
    cases isSuffix : integerSuffix? number.suffix with
    | none => simp [judge, notFloating, overrun, judgeInteger, isSuffix] at clean
    | some suffix =>
      rw [judge_integer notFloating overrun isSuffix] at clean ⊢
      exact ⟨suffix, integerSuffix?_eq_some.mp isSuffix, clean, rfl⟩

/-- A zero in front of other digits takes them for octal ones. -/
theorem integerValue_zero {forms : NumberForms} {number : NumberText} (isDecimal : number.radix = 10)
    (octal : forms.octal = true) {digits : List Char} (notEmpty : digits ≠ [])
    (isWhole : number.whole = '0' :: digits) :
    (number.integerValue forms) = match digits.find? fun digit => !isOctalDigit digit with
      | some bad => (0, [.invalidOctalDigit bad])
      | none => boundedNumeral 8 digits := by
  obtain ⟨digit, rest, rfl⟩ := List.exists_cons_of_ne_nil notEmpty
  unfold integerValue
  rw [isDecimal, isWhole, octal]
  rfl

theorem integerValue_other {forms : NumberForms} {number : NumberText}
    (notOctal : number.radix = 10 → ∀ digits, number.whole = '0' :: digits → digits = []) :
    number.integerValue forms = boundedNumeral number.radix number.whole := by
  unfold integerValue
  split
  · rename_i isDecimal isWhole _
    cases notOctal isDecimal _ isWhole
  · rfl

/-! ## Radixes -/

theorem binary_cLanguage {dialect : Dialect} :
    (cLanguage dialect).numbers.binary = true ↔ dialect.HasBinaryIntegers := by
  simp [cLanguage, Language.Declaration.build, Dialect.HasBinaryIntegers]

variable {dialect : Dialect}

theorem read_announced {input : List Char} {radix length : Nat}
    (announced : announcedRadix (cLanguage dialect).numbers input = (radix, length)) :
    let number := read (cLanguage dialect) input
    number.radix = radix ∧ number.mark = input.take length ∧
      ∀ digit ∈ number.whole, isDigitOf radix digit = true := by
  simp only [read, announced]
  exact ⟨trivial, trivial, fun _ inRun => List.mem_takeWhile_imp inRun⟩

/-- Digits without a mark are octal behind a zero, and else decimal. -/
theorem exists_isNumeral_unmarked {forms : NumberForms} {number : NumberText}
    (octal : forms.octal = true) (isDecimal : number.radix = 10)
    (areDigits : ∀ digit ∈ number.whole, digit.isDigit = true)
    (clean : (number.integerValue forms).2 = []) :
    ∃ mark digits radix, IsNumeral dialect mark digits radix ∧ number.whole = mark ++ digits ∧
      numeral radix digits < 2 ^ 64 ∧ (number.integerValue forms).1 = numeral radix digits := by
  by_cases isOctal : ∃ digits, number.whole = '0' :: digits ∧ digits ≠ []
  · obtain ⟨digits, whole, notEmpty⟩ := isOctal
    rw [integerValue_zero isDecimal octal notEmpty whole] at clean ⊢
    cases isBad : digits.find? fun digit => !isOctalDigit digit with
    | some bad => simp [isBad] at clean
    | none =>
      simp only [isBad] at clean ⊢
      have areOctal : ∀ digit ∈ digits, isOctalDigit digit = true := by simpa using isBad
      obtain ⟨_, fits, isValue⟩ := boundedNumeral_clean clean
      exact ⟨['0'], digits, 8, .octal notEmpty areOctal, whole, fits, isValue⟩
  · have notOctal : number.radix = 10 → ∀ digits, number.whole = '0' :: digits → digits = [] :=
      fun _ digits whole => by_contra fun notEmpty => isOctal ⟨digits, whole, notEmpty⟩
    rw [integerValue_other notOctal, isDecimal] at clean ⊢
    obtain ⟨notEmpty, fits, isValue⟩ := boundedNumeral_clean clean
    obtain ⟨first, digits, whole⟩ := List.exists_cons_of_ne_nil notEmpty
    rw [whole] at areDigits fits isValue ⊢
    refine ⟨[], first :: digits, 10, ?_, rfl, fits, isValue⟩
    by_cases isZero : first = '0'
    · subst isZero
      obtain rfl := notOctal isDecimal digits whole
      exact .zero
    · exact .decimal isZero areDigits

theorem integerValue_marked {forms : NumberForms} {number : NumberText} {radix : Nat}
    (isRadix : number.radix = radix) (notDecimal : radix ≠ 10) :
    number.integerValue forms = boundedNumeral radix number.whole := by
  rw [← isRadix]
  exact integerValue_other fun isDecimal => absurd (isRadix.symm.trans isDecimal) notDecimal

theorem exists_isNumeral {input : List Char}
    (clean : ((read (cLanguage dialect) input).integerValue (cLanguage dialect).numbers).2 = []) :
    let number := read (cLanguage dialect) input
    ∃ mark digits radix, IsNumeral dialect mark digits radix ∧
      number.mark ++ number.whole = mark ++ digits ∧ numeral radix digits < 2 ^ 64 ∧
      (number.integerValue (cLanguage dialect).numbers).1 = numeral radix digits := by
  intro number
  change (number.integerValue _).2 = [] at clean
  rcases Segment.announcedRadix_cases (cLanguage dialect).numbers input with announced |
    ⟨mark, rest, rfl, ⟨isMark, announced⟩ | ⟨isMark, has, announced⟩⟩
  · obtain ⟨isRadix, noMark, areDigits⟩ := read_announced announced
    obtain ⟨mark, digits, radix, isNumeral, whole, fits, isValue⟩ :=
      exists_isNumeral_unmarked rfl isRadix areDigits clean
    exact ⟨mark, digits, radix, isNumeral, by rw [noMark]; exact whole, fits, isValue⟩
  · obtain ⟨isRadix, marked, areDigits⟩ := read_announced announced
    rw [integerValue_marked isRadix (by decide)] at clean ⊢
    obtain ⟨notEmpty, fits, isValue⟩ := boundedNumeral_clean clean
    exact ⟨['0', mark], number.whole, 16, .hexadecimal isMark notEmpty areDigits,
      by rw [marked]; rfl, fits, isValue⟩
  · obtain ⟨isRadix, marked, areDigits⟩ := read_announced announced
    rw [integerValue_marked isRadix (by decide)] at clean ⊢
    obtain ⟨notEmpty, fits, isValue⟩ := boundedNumeral_clean clean
    exact ⟨['0', mark], number.whole, 2, .binary isMark (binary_cLanguage.mp has) notEmpty areDigits,
      by rw [marked]; rfl, fits, isValue⟩

end NumberText

/-! ## Texts of constants -/

section Constants

variable {dialect : Dialect} {mark digits letters : List Char} {radix : Nat} {suffix : IntegerSuffix}

theorem isDigit_of_isOctalDigit {digit : Char} (isOctal : isOctalDigit digit = true) :
    digit.isDigit = true := by
  simp only [isOctalDigit, Bool.and_eq_true, decide_eq_true_eq] at isOctal
  have isDecimal : '0' ≤ digit ∧ digit ≤ '9' := ⟨isOctal.1, Char.le_trans isOctal.2 (by decide)⟩
  simp only [Char.isDigit, Bool.and_eq_true, decide_eq_true_eq]
  exact isDecimal

theorem suffixLetter_facts {letter : Char} (isLetter : letter ∈ ['u', 'U', 'l', 'L']) (radix : Nat) :
    NumberText.isSuffixLetter letter = true ∧ NumberText.isDigitOf radix letter = false ∧
      letter ≠ '.' ∧ (letter.toLower ≠ if radix = 16 then 'p' else 'e') ∧
      letter ∉ ['x', 'X', 'b', 'B'] := by
  have isOne : letter = 'u' ∨ letter = 'U' ∨ letter = 'l' ∨ letter = 'L' := by simpa using isLetter
  obtain ⟨isSuffix, notHex, notBinary, notDecimal, notPoint, notP, notE, notMark⟩ :
      NumberText.isSuffixLetter letter = true ∧ isHexDigit letter = false ∧
        isBinaryDigit letter = false ∧ letter.isDigit = false ∧ letter ≠ '.' ∧
        letter.toLower ≠ 'p' ∧ letter.toLower ≠ 'e' ∧ letter ∉ ['x', 'X', 'b', 'B'] := by
    rcases isOne with rfl | rfl | rfl | rfl <;> decide
  refine ⟨isSuffix, ?_, notPoint, ?_, notMark⟩
  · unfold NumberText.isDigitOf
    split_ifs <;> assumption
  · split_ifs <;> assumption

/-- How a numeral is read: a zero for octal digits is read as a digit, any other mark by itself. -/
structure IsReadAs (dialect : Dialect) (digits : List Char) (radix : Nat) (mark whole : List Char)
    (readRadix : Nat) : Prop where
  areDigits : ∀ digit ∈ whole, NumberText.isDigitOf readRadix digit = true
  announced : ∀ letters, (∀ letter ∈ letters, letter ∈ ['u', 'U', 'l', 'L']) →
    NumberText.announcedRadix (cLanguage dialect).numbers (mark ++ (whole ++ letters)) =
      (readRadix, mark.length)
  value : ∀ number : NumberText, number.radix = readRadix → number.whole = whole →
    number.integerValue (cLanguage dialect).numbers = NumberText.boundedNumeral radix digits

theorem announcedRadix_letters (forms : NumberForms) {first : Char} {rest : List Char}
    (areDigits : ∀ digit ∈ first :: rest, digit.isDigit = true) (inSuffix : ∀ letter ∈ letters, letter ∈ ['u', 'U', 'l', 'L']) :
    NumberText.announcedRadix forms (first :: rest ++ letters) = (10, 0) :=
  NumberText.announcedRadix_digits forms areDigits (List.cons_ne_nil _ _) fun letter isNext =>
    (suffixLetter_facts (inSuffix letter (List.mem_of_head? isNext)) 10).2.2.2.2

theorem IsNumeral.exists_isReadAs (isNumeral : IsNumeral dialect mark digits radix) :
    digits ≠ [] ∧ ∃ readMark whole readRadix, readMark ++ whole = mark ++ digits ∧
      IsReadAs dialect digits radix readMark whole readRadix := by
  cases isNumeral with
  | zero =>
    have isZero : ∀ digit ∈ ['0'], digit.isDigit = true := List.forall_mem_singleton.mpr rfl
    refine ⟨List.cons_ne_nil _ _, [], ['0'], 10, rfl, isZero, fun letters inSuffix => ?_, ?_⟩
    · exact announcedRadix_letters _ isZero inSuffix
    · intro number isRadix isWhole
      rw [NumberText.integerValue_other, isRadix, isWhole]
      intro _ digits whole
      exact (List.cons.inj (isWhole.symm.trans whole)).2.symm
  | @decimal first rest notZero areDigits =>
    refine ⟨List.cons_ne_nil _ _, [], first :: rest, 10, rfl, areDigits, fun letters inSuffix => ?_, ?_⟩
    · exact announcedRadix_letters _ areDigits inSuffix
    · intro number isRadix isWhole
      rw [NumberText.integerValue_other, isRadix, isWhole]
      intro _ digits whole
      exact absurd (List.cons.inj (isWhole.symm.trans whole)).1 notZero
  | octal notEmpty areDigits =>
    -- the zero in front is read as one of the digits
    have areDecimal : ∀ digit ∈ '0' :: digits, digit.isDigit = true :=
      List.forall_mem_cons.mpr ⟨by decide, fun digit inDigits =>
        isDigit_of_isOctalDigit (areDigits digit inDigits)⟩
    refine ⟨notEmpty, [], '0' :: digits, 10, rfl, areDecimal, fun letters inSuffix => ?_, ?_⟩
    · exact announcedRadix_letters _ areDecimal inSuffix
    · intro number isRadix isWhole
      have noneBad : digits.find? (fun digit => !isOctalDigit digit) = none := by simpa using areDigits
      rw [NumberText.integerValue_zero isRadix rfl notEmpty isWhole, noneBad]
  | @hexadecimal mark digits isMark notEmpty areDigits =>
    refine ⟨notEmpty, ['0', mark], digits, 16, rfl, areDigits, fun letters inSuffix => ?_, ?_⟩
    · obtain ⟨digit, rest, rfl⟩ := List.exists_cons_of_ne_nil notEmpty
      have isDigit := areDigits digit List.mem_cons_self
      rcases isMark with rfl | rfl <;>
        simp [NumberText.announcedRadix, isDigit, cLanguage, Language.Declaration.build]
    · exact fun _ isRadix isWhole => isWhole ▸ NumberText.integerValue_marked isRadix (by decide)
  | @binary mark digits isMark has notEmpty areDigits =>
    refine ⟨notEmpty, ['0', mark], digits, 2, rfl, areDigits, fun letters inSuffix => ?_, ?_⟩
    · obtain ⟨digit, rest, rfl⟩ := List.exists_cons_of_ne_nil notEmpty
      have isDigit := areDigits digit List.mem_cons_self
      have binary := NumberText.binary_cLanguage.mpr has
      rcases isMark with rfl | rfl <;> simp [NumberText.announcedRadix, isDigit, binary]
    · exact fun _ isRadix isWhole => isWhole ▸ NumberText.integerValue_marked isRadix (by decide)

/-- The text of a constant is read as a number that is no floating constant and takes all of the text. -/
theorem IsNumeral.exists_number (isNumeral : IsNumeral dialect mark digits radix)
    (spells : SpellsSuffix letters suffix) :
    ∃ number, NumberText.read (cLanguage dialect) (mark ++ (digits ++ letters)) = number ∧
      number.isFloating = false ∧ number.characters = mark ++ (digits ++ letters) ∧
      number.judge (cLanguage dialect).numbers =
        if numeral radix digits < 2 ^ 64 then (.integer (numeral radix digits) suffix, [])
        else (.integer 0 suffix, [.integerTooLarge]) := by
  obtain ⟨notEmpty, readMark, whole, readRadix, same, isReadAs⟩ := isNumeral.exists_isReadAs
  have isAnnounced : NumberText.announcedRadix (cLanguage dialect).numbers
      (readMark ++ (whole ++ (letters ++ []))) = (readRadix, readMark.length) := by
    rw [List.append_nil]
    exact isReadAs.announced letters spells.mem
  -- The first letter of the suffix neither continues the digits nor starts a fraction or an
  -- exponent.
  have stops : NumberText.EndsWhole readRadix (letters ++ []) := by
    intro letter isNext
    rw [List.append_nil] at isNext
    obtain ⟨_, notDigit, notPoint, notExponent, _⟩ :=
      suffixLetter_facts (spells.mem letter (List.mem_of_head? isNext)) readRadix
    exact ⟨notDigit, notPoint, notExponent⟩
  have areLetters : ∀ letter ∈ letters, NumberText.isSuffixLetter letter = true :=
    fun letter inLetters => (suffixLetter_facts (spells.mem letter inLetters) readRadix).1
  have read := NumberText.read_integer readMark isAnnounced isReadAs.areDigits areLetters stops .nil
  have text : readMark ++ (whole ++ (letters ++ [])) = mark ++ (digits ++ letters) := by
    rw [List.append_nil, ← List.append_assoc, same, List.append_assoc]
  rw [text] at read
  refine ⟨_, read, rfl, ?_, ?_⟩
  · rw [← text]
    simp [NumberText.characters, NumberText.body, NumberText.pointAndFraction,
      NumberText.letterAndExponent]
  · rw [NumberText.judge_integer rfl rfl (NumberText.integerSuffix?_eq_some.mpr spells),
      isReadAs.value _ rfl rfl, NumberText.boundedNumeral_eq notEmpty]
    split <;> rfl

end Constants

end CFrontEnd
