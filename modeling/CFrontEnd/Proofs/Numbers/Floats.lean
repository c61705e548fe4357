import CFrontEnd.Proofs.Numbers.Constants
import CFrontEnd.Proofs.Scan.Relayout

/-!
What a floating constant of C is, and how the scanner reads one: up to where its suffix ends, with each
of its parts stopping where the next one begins.
-/

namespace CFrontEnd

/-! ## Constants -/

/-- At least one digit, with a point in front of them, among them or behind them, or with none. -/
inductive IsSignificand (isDigit : Char → Bool) : List Char → Prop
  | plain {digits : List Char} (notEmpty : digits ≠ [])
      (areDigits : ∀ digit ∈ digits, isDigit digit = true) : IsSignificand isDigit digits
  | pointed {whole fraction : List Char} (notEmpty : whole ++ fraction ≠ [])
      (areDigits : ∀ digit ∈ whole ++ fraction, isDigit digit = true) :
      IsSignificand isDigit (whole ++ '.' :: fraction)

/-- A letter and decimal digits with or without a sign, and the number that these spell. -/
inductive IsExponent (small large : Char) : List Char → Int → Prop
  | unsigned {letter : Char} {digits : List Char} (isLetter : letter = small ∨ letter = large)
      (notEmpty : digits ≠ []) (areDigits : ∀ digit ∈ digits, digit.isDigit = true) :
      IsExponent small large (letter :: digits) (numeral 10 digits)
  | positive {letter : Char} {digits : List Char} (isLetter : letter = small ∨ letter = large)
      (notEmpty : digits ≠ []) (areDigits : ∀ digit ∈ digits, digit.isDigit = true) :
      IsExponent small large (letter :: '+' :: digits) (numeral 10 digits)
  | negative {letter : Char} {digits : List Char} (isLetter : letter = small ∨ letter = large)
      (notEmpty : digits ≠ []) (areDigits : ∀ digit ∈ digits, digit.isDigit = true) :
      IsExponent small large (letter :: '-' :: digits) (-(numeral 10 digits : Int))

theorem IsExponent.isLetter {small large letter : Char} {digits : List Char} {value : Int}
    (isExponent : IsExponent small large (letter :: digits) value) : letter = small ∨ letter = large := by
  cases isExponent <;> assumption

theorem IsExponent.exists_letter {small large : Char} {exponent : List Char} {value : Int}
    (isExponent : IsExponent small large exponent value) :
    ∃ letter digits, exponent = letter :: digits := by
  cases isExponent <;> exact ⟨_, _, rfl⟩

/-- A binary exponent that fits a signed number of 32 bits. -/
def IsBinaryExponent (exponent : List Char) : Prop :=
  ∃ value, IsExponent 'p' 'P' exponent value ∧ -0x80000000 ≤ value ∧ value ≤ 0x7FFFFFFF

def floatSuffixes : List (List Char) := [[], ['f'], ['F'], ['l'], ['L']]

/-- The text of a floating constant. A decimal one has a point or an exponent, and a hexadecimal one an
exponent in any case. -/
inductive IsFloatingConstant : List Char → Prop
  | pointed {significand suffix : List Char} (isSignificand : IsSignificand Char.isDigit significand)
      (hasPoint : '.' ∈ significand) (isSuffix : suffix ∈ floatSuffixes) :
      IsFloatingConstant (significand ++ suffix)
  | decimal {significand exponent suffix : List Char} {value : Int}
      (isSignificand : IsSignificand Char.isDigit significand)
      (isExponent : IsExponent 'e' 'E' exponent value) (isSuffix : suffix ∈ floatSuffixes) :
      IsFloatingConstant (significand ++ (exponent ++ suffix))
  | hexadecimal {mark : Char} {significand exponent suffix : List Char}
      (isMark : mark = 'x' ∨ mark = 'X') (isSignificand : IsSignificand isHexDigit significand)
      (isExponent : IsBinaryExponent exponent) (isSuffix : suffix ∈ floatSuffixes) :
      IsFloatingConstant ('0' :: mark :: (significand ++ (exponent ++ suffix)))

/-- A hexadecimal constant but for its digits: there is none on either side of the point. -/
inductive LacksDigits : List Char → Prop
  | mk {mark : Char} {exponent suffix : List Char} (isMark : mark = 'x' ∨ mark = 'X')
      (isExponent : IsBinaryExponent exponent) (isSuffix : suffix ∈ floatSuffixes) :
      LacksDigits ('0' :: mark :: '.' :: (exponent ++ suffix))

/-! ## Numbers that lack digits -/

theorem IsSignificand.mem {isDigit : Char → Bool} {significand : List Char}
    (isSignificand : IsSignificand isDigit significand) :
    ∀ character ∈ significand, isDigit character = true ∨ character = '.' := by
  cases isSignificand with
  | plain _ areDigits => exact fun character inText => .inl (areDigits character inText)
  | pointed _ areDigits =>
    intro character inText
    rcases List.mem_append.mp inText with inWhole | inRest
    · exact .inl (areDigits character (List.mem_append_left _ inWhole))
    · rcases List.mem_cons.mp inRest with isPoint | inFraction
      · exact .inr isPoint
      · exact .inl (areDigits character (List.mem_append_right _ inFraction))

theorem IsExponent.mem {small large : Char} {exponent : List Char} {value : Int}
    (isExponent : IsExponent small large exponent value) :
    ∀ character ∈ exponent, character ∈ [small, large, '+', '-'] ∨ character.isDigit = true := by
  have head {letter : Char} (isLetter : letter = small ∨ letter = large) :
      letter ∈ [small, large, '+', '-'] ∨ letter.isDigit = true := by
    rcases isLetter with rfl | rfl <;> simp
  cases isExponent with
  | unsigned isLetter _ areDigits =>
    exact List.forall_mem_cons.mpr ⟨head isLetter, fun digit inDigits => .inr (areDigits digit inDigits)⟩
  | positive isLetter _ areDigits =>
    exact List.forall_mem_cons.mpr ⟨head isLetter, List.forall_mem_cons.mpr
      ⟨.inl (by simp), fun digit inDigits => .inr (areDigits digit inDigits)⟩⟩
  | negative isLetter _ areDigits =>
    exact List.forall_mem_cons.mpr ⟨head isLetter, List.forall_mem_cons.mpr
      ⟨.inl (by simp), fun digit inDigits => .inr (areDigits digit inDigits)⟩⟩

/-- Only in front of hexadecimal digits is there an `x`. -/
theorem IsFloatingConstant.exists_significand {mark : Char} {rest : List Char}
    (isMark : mark = 'x' ∨ mark = 'X') (isConstant : IsFloatingConstant ('0' :: mark :: rest)) :
    ∃ significand behind, IsSignificand isHexDigit significand ∧ rest = significand ++ behind := by
  generalize isText : '0' :: mark :: rest = text at isConstant
  have inText : mark ∈ text := by simp [← isText]
  have notDigit : ¬ (mark.isDigit = true ∨ mark = '.') := by
    rcases isMark with rfl | rfl <;> decide
  have notLetter : ¬ (mark ∈ ['e', 'E', '+', '-'] ∨ mark.isDigit = true) := by
    rcases isMark with rfl | rfl <;> decide
  have notSuffix : ∀ suffix ∈ floatSuffixes, mark ∉ suffix := by
    rcases isMark with rfl | rfl <;> decide
  cases isConstant with
  | pointed isSignificand _ isSuffix =>
    rcases List.mem_append.mp inText with inSignificand | inSuffix
    · exact absurd (isSignificand.mem mark inSignificand) notDigit
    · exact absurd inSuffix (notSuffix _ isSuffix)
  | decimal isSignificand isExponent isSuffix =>
    rcases List.mem_append.mp inText with inSignificand | inBehind
    · exact absurd (isSignificand.mem mark inSignificand) notDigit
    · rcases List.mem_append.mp inBehind with inExponent | inSuffix
      · exact absurd (isExponent.mem mark inExponent) notLetter
      · exact absurd inSuffix (notSuffix _ isSuffix)
  | hexadecimal _ isSignificand =>
    obtain ⟨_, same⟩ := List.cons.inj isText
    obtain ⟨_, same⟩ := List.cons.inj same
    exact ⟨_, _, isSignificand, same⟩

/-- What lacks digits is no constant. -/
theorem LacksDigits.notConstant {text : List Char} (lacksDigits : LacksDigits text) :
    ¬ IsFloatingConstant text := by
  intro isConstant
  cases lacksDigits with
  | mk isMark isExponent isSuffix =>
    obtain ⟨significand, behind, isSignificand, same⟩ := isConstant.exists_significand isMark
    obtain ⟨value, isExponent, _⟩ := isExponent
    obtain ⟨letter, digits, rfl⟩ := isExponent.exists_letter
    have notDigit : isHexDigit letter = false := by
      rcases isExponent.isLetter with rfl | rfl <;> decide
    cases isSignificand with
    | plain notEmpty areDigits =>
      obtain ⟨first, rest, rfl⟩ := List.exists_cons_of_ne_nil notEmpty
      obtain rfl := (List.cons.inj same).1
      exact absurd (areDigits '.' List.mem_cons_self) (by decide)
    | @pointed whole fraction notEmpty areDigits =>
      cases whole with
      | cons first rest =>
        obtain rfl := (List.cons.inj same).1
        exact absurd (areDigits '.' List.mem_cons_self) (by decide)
      | nil =>
        obtain ⟨digit, rest, rfl⟩ := List.exists_cons_of_ne_nil notEmpty
        obtain ⟨_, same⟩ := List.cons.inj same
        obtain rfl := (List.cons.inj same).1
        have isDigit := areDigits letter List.mem_cons_self
        rw [notDigit] at isDigit
        cases isDigit

/-! ## Problems of floating numbers -/

namespace NumberText

theorem floatSuffix?_isSome {letters : List Char} :
    (floatSuffix? letters).isSome = true ↔ letters ∈ floatSuffixes := by
  constructor
  · intro isSuffix
    unfold floatSuffix? at isSuffix
    split at isSuffix
    all_goals first | decide | cases isSuffix
  · intro isSuffix
    have decided : ∀ suffix ∈ floatSuffixes, (floatSuffix? suffix).isSome = true := by decide
    exact decided letters isSuffix

/-- There is an exponent, and it fits 32 bits. -/
structure HasExponent (number : NumberText) : Prop where
  isSome : number.exponent.isSome = true
  low : -0x80000000 ≤ number.exponentValue
  high : number.exponentValue ≤ 0x7FFFFFFF

theorem judge_floating_clean {forms : NumberForms} {number : NumberText}
    (isFloating : number.isFloating = true) :
    (number.judge forms).2 = [] ↔ number.overrun = false ∧ number.suffix ∈ floatSuffixes ∧
      (number.radix = 16 → number.HasExponent) := by
  rw [← floatSuffix?_isSome]
  cases overrun : number.overrun with
  | true => simp [judge, isFloating, overrun]
  | false =>
    have hasValue : number.floatValue?.isNone = false ↔
        (number.radix = 16 →
          -0x80000000 ≤ number.exponentValue ∧ number.exponentValue ≤ 0x7FFFFFFF) := by
      unfold floatValue?
      split_ifs <;> simp_all
    have judged : (number.judge forms).2 = [] ↔
        (number.radix = 16 → number.exponent.isNone = false) ∧
          (floatSuffix? number.suffix).isNone = false ∧ number.floatValue?.isNone = false := by
      simp [judge, isFloating, overrun, judgeFloat, List.filter_eq_nil_iff]
    rw [judged, hasValue]
    constructor
    · rintro ⟨hasExponent, isSuffix, fits⟩
      refine ⟨rfl, by simpa using isSuffix, fun isHex => ⟨?_, (fits isHex).1, (fits isHex).2⟩⟩
      simpa using hasExponent isHex
    · rintro ⟨_, isSuffix, hasExponent⟩
      refine ⟨fun isHex => ?_, by simpa using isSuffix, fun isHex =>
        ⟨(hasExponent isHex).low, (hasExponent isHex).high⟩⟩
      simpa using (hasExponent isHex).isSome

end NumberText

/-! ## Significands and exponents -/

theorem isSignificand_iff {isDigit : Char → Bool} {text : List Char} :
    IsSignificand isDigit text ↔ ∃ whole fraction,
      text = whole ++ NumberText.pointAndFraction fraction ∧ whole ++ fraction.getD [] ≠ [] ∧
      ∀ digit ∈ whole ++ fraction.getD [], isDigit digit = true := by
  constructor
  · intro isSignificand
    cases isSignificand with
    | plain notEmpty areDigits =>
      exact ⟨text, none, (List.append_nil _).symm, by simpa using notEmpty, by simpa using areDigits⟩
    | @pointed whole fraction notEmpty areDigits =>
      exact ⟨whole, some fraction, rfl, notEmpty, areDigits⟩
  · rintro ⟨whole, fraction, rfl, notEmpty, areDigits⟩
    cases fraction with
    | none =>
      simp only [Option.getD_none, List.append_nil, NumberText.pointAndFraction] at *
      exact .plain notEmpty areDigits
    | some fraction => exact .pointed notEmpty areDigits

/-- The radixes that floating numbers are written in, with the letters of their exponents. -/
inductive IsFloatRadix : Nat → Char → Char → Prop
  | decimal : IsFloatRadix 10 'e' 'E'
  | hexadecimal : IsFloatRadix 16 'p' 'P'

namespace IsFloatRadix

variable {radix : Nat} {small large : Char}

theorem notBinary (isRadix : IsFloatRadix radix small large) : radix ≠ 2 := by
  cases isRadix <;> decide

theorem notDigit (isRadix : IsFloatRadix radix small large) :
    NumberText.isDigitOf radix '.' = false := by
  cases isRadix <;> rfl

theorem eq_ten (isRadix : IsFloatRadix radix 'e' 'E') : radix = 10 := by
  cases isRadix
  rfl

theorem eq_sixteen (isRadix : IsFloatRadix radix 'p' 'P') : radix = 16 := by
  cases isRadix
  rfl

end IsFloatRadix

namespace NumberText

variable {dialect : Dialect} {forms : NumberForms} {radix : Nat} {small large letter : Char}
  {digits input next : List Char} {value : Int}

theorem eq_of_toLower {letter : Char} :
    (letter.toLower = 'e' → letter = 'e' ∨ letter = 'E') ∧
      (letter.toLower = 'p' → letter = 'p' ∨ letter = 'P') := by
  by_cases ascii : letter.toNat < 0x80
  · refine of_isAscii (fun letter => (letter.toLower = 'e' → letter = 'e' ∨ letter = 'E') ∧
      (letter.toLower = 'p' → letter = 'p' ∨ letter = 'P')) ?_ ascii
    decide
  · have same : letter.toLower = letter :=
      dif_neg fun range => ascii (Nat.lt_of_le_of_lt range.2 (by decide))
    rw [same]
    exact ⟨.inl, .inl⟩

theorem exponentLetter_iff (isRadix : IsFloatRadix radix small large) :
    (letter.toLower = if radix = 16 then 'p' else 'e') ↔ letter = small ∨ letter = large := by
  cases isRadix with
  | decimal => exact ⟨eq_of_toLower.1, by rintro (rfl | rfl) <;> decide⟩
  | hexadecimal => exact ⟨eq_of_toLower.2, by rintro (rfl | rfl) <;> decide⟩

/-- The letter of an exponent ends the digits in front of it. -/
theorem exponentLetter_stops (isRadix : IsFloatRadix radix small large)
    (isLetter : letter = small ∨ letter = large) :
    isDigitOf radix letter = false ∧ letter ≠ '.' := by
  cases isRadix <;> rcases isLetter with rfl | rfl <;> decide

theorem isExponent_of_signedDigits (isLetter : letter = small ∨ letter = large)
    (found : signedDigits input = some digits) :
    ∃ value, IsExponent small large (letter :: digits) value := by
  have areDigits (text : List Char) : ∀ digit ∈ text.takeWhile Char.isDigit, digit.isDigit = true :=
    fun _ inRun => List.mem_takeWhile_imp inRun
  cases input with
  | nil => cases found
  | cons first rest =>
    simp only [signedDigits] at found
    split at found
    · rename_i isDigit
      rw [← Option.some.inj found]
      exact ⟨_, .unsigned isLetter (List.cons_ne_nil _ _)
        (List.forall_mem_cons.mpr ⟨isDigit, areDigits rest⟩)⟩
    · split at found
      · rename_i isSign
        simp only [Bool.or_eq_true, beq_iff_eq] at isSign
        split at found
        · cases found
        · rename_i notEmpty
          rw [← Option.some.inj found]
          rcases isSign with rfl | rfl
          · exact ⟨_, .positive isLetter (fun empty => notEmpty empty) (areDigits rest)⟩
          · exact ⟨_, .negative isLetter (fun empty => notEmpty empty) (areDigits rest)⟩
      · cases found

/-- An exponent is read up to its last digit. -/
theorem signedDigits_of_isExponent (isExponent : IsExponent small large (letter :: digits) value)
    (ends : ∀ character, next.head? = some character → character.isDigit = false) :
    signedDigits (digits ++ next) = some digits := by
  cases isExponent with
  | unsigned _ notEmpty areDigits =>
    obtain ⟨first, rest, rfl⟩ := List.exists_cons_of_ne_nil notEmpty
    obtain ⟨isDigit, areRest⟩ := List.forall_mem_cons.mp areDigits
    rw [List.cons_append, signedDigits, if_pos isDigit, takeWhile_run areRest ends]
  | @positive letter digits _ notEmpty areDigits =>
    obtain ⟨first, rest, rfl⟩ := List.exists_cons_of_ne_nil notEmpty
    have isRun := takeWhile_run areDigits ends
    rw [List.cons_append] at isRun
    simp [signedDigits, isRun]
  | @negative letter digits _ notEmpty areDigits =>
    obtain ⟨first, rest, rfl⟩ := List.exists_cons_of_ne_nil notEmpty
    have isRun := takeWhile_run areDigits ends
    rw [List.cons_append] at isRun
    simp [signedDigits, isRun]

theorem exponentValue_eq {number : NumberText} (has : number.exponent = some (letter, digits))
    (isExponent : IsExponent small large (letter :: digits) value) :
    number.exponentValue = value := by
  unfold exponentValue
  rw [has]
  cases isExponent with
  | unsigned _ notEmpty areDigits =>
    obtain ⟨first, rest, rfl⟩ := List.exists_cons_of_ne_nil notEmpty
    have isDigit := areDigits first List.mem_cons_self
    split
    · cases ‹_›
    · rename_i same
      obtain ⟨rfl, _⟩ := List.cons.inj (Prod.mk.inj (Option.some.inj same)).2
      exact absurd isDigit (by decide)
    · rename_i same
      obtain ⟨rfl, _⟩ := List.cons.inj (Prod.mk.inj (Option.some.inj same)).2
      exact absurd isDigit (by decide)
    · rename_i same
      rw [(Prod.mk.inj (Option.some.inj same)).2]
  | positive => rfl
  | negative => rfl

theorem exponentAt_some (isRadix : IsFloatRadix radix small large)
    (found : exponentAt forms radix input = some (letter, digits)) :
    ∃ value, IsExponent small large (letter :: digits) value := by
  cases input with
  | nil => cases found
  | cons first rest =>
    by_cases isLetter : (radix ≠ 2 && forms.exponent &&
        first.toLower == (if radix = 16 then 'p' else 'e')) = true
    · rw [exponentAt, if_pos isLetter] at found
      obtain ⟨signed, isSigned, same⟩ := Option.map_eq_some_iff.mp found
      obtain ⟨rfl, rfl⟩ := Prod.mk.inj same
      simp only [Bool.and_eq_true, beq_iff_eq] at isLetter
      exact isExponent_of_signedDigits ((exponentLetter_iff isRadix).mp isLetter.2) isSigned
    · rw [exponentAt, if_neg isLetter] at found
      cases found

theorem exponentAt_of_isExponent (isRadix : IsFloatRadix radix small large)
    (isExponent : IsExponent small large (letter :: digits) value)
    (ends : ∀ character, next.head? = some character → character.isDigit = false) :
    exponentAt (cLanguage dialect).numbers radix (letter :: digits ++ next) =
      some (letter, digits) := by
  have lower := (exponentLetter_iff isRadix).mpr isExponent.isLetter
  have hasExponents : (cLanguage dialect).numbers.exponent = true := rfl
  rw [List.cons_append, exponentAt, signedDigits_of_isExponent isExponent ends]
  simp [isRadix.notBinary, hasExponents, lower]

theorem fractionAt_some (found : fractionAt forms radix input = some digits) :
    radix ≠ 2 ∧ ∀ digit ∈ digits, isDigitOf radix digit = true := by
  unfold fractionAt at found
  split at found
  · split at found
    · rename_i isAllowed
      simp only [Bool.and_eq_true, decide_eq_true_eq] at isAllowed
      rw [← Option.some.inj found]
      exact ⟨isAllowed.1, fun _ inRun => List.mem_takeWhile_imp inRun⟩
    · cases found
  · cases found

/-! ## Floating numbers without a problem -/

/-- The parts of a floating number that nothing is wrong with, but that it may lack digits. -/
structure IsFloat (number : NumberText) (small large : Char) : Prop where
  isRadix : IsFloatRadix number.radix small large
  areDigits : ∀ digit ∈ number.significand, isDigitOf number.radix digit = true
  isExponent : ∀ letter digits, number.exponent = some (letter, digits) →
    ∃ value, IsExponent small large (letter :: digits) value
  isFloating : number.isFloating = true
  isBinary : number.radix = 16 → number.HasExponent
  isSuffix : number.suffix ∈ floatSuffixes
  noOverrun : number.overrun = false

/-- What stands behind the first digits of a number. -/
def behindWhole (number : NumberText) (next : List Char) : List Char :=
  pointAndFraction number.fraction ++
    (letterAndExponent number.exponent ++ (number.suffix ++ next))

theorem characters_append (number : NumberText) (next : List Char) :
    number.characters ++ next = number.mark ++ (number.whole ++ number.behindWhole next) := by
  simp only [characters, body, behindWhole, List.append_assoc]

namespace IsFloat

variable {number : NumberText} {character : Char}

theorem clean (isFloat : number.IsFloat small large) (forms : NumberForms) :
    (number.judge forms).2 = [] :=
  (judge_floating_clean isFloat.isFloating).mpr
    ⟨isFloat.noOverrun, isFloat.isSuffix, isFloat.isBinary⟩

theorem exponent_cases (isFloat : number.IsFloat small large) :
    (∃ fraction, number.fraction = some fraction ∧ number.exponent = none ∧ number.radix = 10) ∨
      ∃ letter digits value, number.exponent = some (letter, digits) ∧
        IsExponent small large (letter :: digits) value := by
  cases has : number.exponent with
  | some exponent =>
    obtain ⟨letter, digits⟩ := exponent
    obtain ⟨value, isExponent⟩ := isFloat.isExponent letter digits has
    exact .inr ⟨letter, digits, value, rfl, isExponent⟩
  | none =>
    have isFloating := isFloat.isFloating
    rw [NumberText.isFloating, has, Option.isSome_none, Bool.or_false] at isFloating
    obtain ⟨fraction, isFraction⟩ := Option.isSome_iff_exists.mp isFloating
    refine .inl ⟨fraction, isFraction, rfl, ?_⟩
    have isRadix := isFloat.isRadix
    have isBinary := isFloat.isBinary
    generalize number.radix = radix at isRadix isBinary
    cases isRadix with
    | decimal => rfl
    | hexadecimal => simpa [has] using (isBinary rfl).isSome

theorem head_suffix (isFloat : number.IsFloat small large) (ends : EndsWord next)
    (isNext : (number.suffix ++ next).head? = some character) :
    character.isDigit = false ∧ character.toLower ≠ 'e' := by
  cases letters : number.suffix with
  | nil =>
    rw [letters] at isNext
    have notWord := (Bool.or_eq_false_iff.mp (ends character isNext).1).2
    refine ⟨?_, fun isExponent => ?_⟩
    · simp only [Char.isAlphanum, Bool.or_eq_false_iff] at notWord
      exact notWord.2
    · rw [isAlphanum_of_toLower isExponent] at notWord
      cases notWord
  | cons letter rest =>
    have isSuffix := isFloat.isSuffix
    rw [letters] at isSuffix isNext
    obtain rfl := Option.some.inj isNext
    have known : ∀ suffix ∈ floatSuffixes, ∀ letter ∈ suffix,
        letter.isDigit = false ∧ letter.toLower ≠ 'e' := by
      simp [floatSuffixes]
    exact known _ isSuffix letter List.mem_cons_self

/-- No letter of a suffix is taken for a digit: where it would be one, an exponent stands in between. -/
theorem head_exponent (isFloat : number.IsFloat small large) (ends : EndsWord next)
    (isNext : (letterAndExponent number.exponent ++ (number.suffix ++ next)).head? = some character) :
    isDigitOf number.radix character = false := by
  rcases isFloat.exponent_cases with ⟨_, _, none, decimal⟩ | ⟨letter, digits, value, has, isExponent⟩
  · rw [none] at isNext
    rw [decimal]
    exact (isFloat.head_suffix ends isNext).1
  · rw [has] at isNext
    obtain rfl := Option.some.inj isNext
    exact (exponentLetter_stops isFloat.isRadix isExponent.isLetter).1

theorem head_behindWhole (isFloat : number.IsFloat small large)
    (isNext : (number.behindWhole next).head? = some character) :
    character = '.' ∨ character = small ∨ character = large := by
  unfold behindWhole at isNext
  cases isFraction : number.fraction with
  | some fraction =>
    rw [isFraction] at isNext
    exact .inl (Option.some.inj isNext).symm
  | none =>
    rw [isFraction] at isNext
    rcases isFloat.exponent_cases with ⟨_, has, _⟩ | ⟨letter, digits, value, has, isExponent⟩
    · rw [isFraction] at has
      cases has
    · rw [has] at isNext
      obtain rfl := Option.some.inj isNext
      exact .inr isExponent.isLetter

theorem exponentAt_eq (isFloat : number.IsFloat small large) (ends : EndsWord next) :
    exponentAt (cLanguage dialect).numbers number.radix
      (letterAndExponent number.exponent ++ (number.suffix ++ next)) = number.exponent := by
  rcases isFloat.exponent_cases with ⟨_, _, none, decimal⟩ | ⟨letter, digits, value, has, isExponent⟩
  · have notExponent := fun character isNext => (@head_suffix _ _ _ _ character isFloat ends isNext).2
    rw [none, decimal, letterAndExponent, List.nil_append]
    generalize number.suffix ++ next = behind at notExponent
    cases behind with
    | nil => rfl
    | cons character rest => simp [exponentAt, notExponent character rfl]
  · rw [has]
    exact exponentAt_of_isExponent isFloat.isRadix isExponent fun character isNext =>
      (isFloat.head_suffix ends isNext).1

theorem fractionAt_eq (isFloat : number.IsFloat small large) (ends : EndsWord next) :
    fractionAt (cLanguage dialect).numbers number.radix (number.behindWhole next) =
      number.fraction := by
  obtain ⟨_, areDigits⟩ := List.forall_mem_append.mp isFloat.areDigits
  cases isFraction : number.fraction with
  | some fraction =>
    have hasFractions : (cLanguage dialect).numbers.fraction = true := rfl
    rw [isFraction, Option.getD_some] at areDigits
    rw [behindWhole, isFraction, pointAndFraction, List.cons_append, fractionAt,
      takeWhile_run areDigits fun character isNext => isFloat.head_exponent ends isNext]
    simp [isFloat.isRadix.notBinary, hasFractions]
  | none =>
    rcases isFloat.exponent_cases with ⟨_, has, _⟩ | ⟨letter, digits, value, has, isExponent⟩
    · rw [isFraction] at has
      cases has
    · have notPoint := (exponentLetter_stops isFloat.isRadix isExponent.isLetter).2
      rw [behindWhole, isFraction, has, pointAndFraction, letterAndExponent, List.nil_append,
        List.cons_append, fractionAt]
      exact fun _ same => notPoint (List.cons.inj same).1

theorem read_eq (isFloat : number.IsFloat small large) (ends : EndsWord next)
    (announced : announcedRadix (cLanguage dialect).numbers (number.characters ++ next) =
      (number.radix, number.mark.length)) :
    read (cLanguage dialect) (number.characters ++ next) = number := by
  obtain ⟨areDigits, _⟩ := List.forall_mem_append.mp isFloat.areDigits
  rw [characters_append, behindWhole] at announced ⊢
  have stops : ∀ character, (number.behindWhole next).head? = some character →
      isDigitOf number.radix character = false := by
    intro character isNext
    rcases isFloat.head_behindWhole isNext with rfl | isLetter
    · exact isFloat.isRadix.notDigit
    · exact (exponentLetter_stops isFloat.isRadix isLetter).1
  have inSuffix : ∀ letter ∈ number.suffix, isSuffixLetter letter = true := by
    have known : ∀ suffix ∈ floatSuffixes, ∀ letter ∈ suffix, isSuffixLetter letter = true := by
      simp [floatSuffixes, isSuffixLetter]
    exact known _ isFloat.isSuffix
  rw [read_parts number.mark announced areDigits stops (isFloat.fractionAt_eq ends)
    (isFloat.exponentAt_eq ends) inSuffix ends]
  have noOverrun := isFloat.noOverrun
  cases number
  subst noOverrun
  rfl

end IsFloat

end NumberText

end CFrontEnd
