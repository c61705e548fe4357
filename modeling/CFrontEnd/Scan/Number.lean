import CFrontEnd.Decimal.Value
import CFrontEnd.Language.Table
import CFrontEnd.Scan.Problem
import CFrontEnd.Token.Literal

/-!
Numbers in a text. A number is first taken apart into its mark, digits and suffix, as far as it
reaches, and its parts are judged afterwards; a number that is wrong is still one token.
-/

namespace CFrontEnd

structure NumberText where
  radix : Nat
  /-- The characters `0x` or `0b` in front of the digits. -/
  mark : List Char
  whole : List Char
  /-- The digits after a point. -/
  fraction : Option (List Char)
  /-- The letter in front of the exponent, and the exponent with its sign. -/
  exponent : Option (Char × List Char)
  suffix : List Char
  /-- Whether `suffix` holds characters that no suffix is made of. -/
  overrun : Bool
  deriving DecidableEq, Repr

namespace NumberText

def isDigitOf (radix : Nat) (character : Char) : Bool :=
  if radix = 16 then isHexDigit character
  else if radix = 2 then isBinaryDigit character
  else character.isDigit

/-- The radix that the first characters announce, and how many characters announce it. -/
def announcedRadix (forms : NumberForms) : List Char → Nat × Nat
  | '0' :: mark :: digit :: _ =>
    if (mark == 'x' || mark == 'X') && forms.hexadecimal
        && (isHexDigit digit || (digit == '.' && forms.fraction)) then (16, 2)
    else if (mark == 'b' || mark == 'B') && forms.binary && isBinaryDigit digit then (2, 2)
    else (10, 0)
  | _ => (10, 0)

def fractionAt (forms : NumberForms) (radix : Nat) : List Char → Option (List Char)
  | '.' :: rest =>
    if radix ≠ 2 && forms.fraction then some (rest.takeWhile (isDigitOf radix)) else none
  | _ => none

def signedDigits : List Char → Option (List Char)
  | [] => none
  | first :: rest =>
    if first.isDigit then some (first :: rest.takeWhile Char.isDigit)
    else if first == '+' || first == '-' then
      match rest.takeWhile Char.isDigit with
      | [] => none
      | digits => some (first :: digits)
    else none

def exponentAt (forms : NumberForms) (radix : Nat) : List Char → Option (Char × List Char)
  | letter :: rest =>
    if radix ≠ 2 && forms.exponent && letter.toLower == (if radix = 16 then 'p' else 'e') then
      (signedDigits rest).map fun digits => (letter, digits)
    else none
  | [] => none

def isSuffixLetter (character : Char) : Bool :=
  character == 'u' || character == 'U' || character == 'l' || character == 'L'
    || character == 'f' || character == 'F'

def pointAndFraction : Option (List Char) → List Char
  | none => []
  | some digits => '.' :: digits

def letterAndExponent : Option (Char × List Char) → List Char
  | none => []
  | some (letter, digits) => letter :: digits

/-- The number at the beginning of `input`. -/
def read (language : Language) (input : List Char) : NumberText :=
  let forms := language.numbers
  let (radix, markLength) := announcedRadix forms input
  let afterMark := input.drop markLength
  let whole := afterMark.takeWhile (isDigitOf radix)
  let afterWhole := afterMark.drop whole.length
  let fraction := fractionAt forms radix afterWhole
  let afterFraction := afterWhole.drop (pointAndFraction fraction).length
  let exponent := exponentAt forms radix afterFraction
  let afterExponent := afterFraction.drop (letterAndExponent exponent).length
  let letters := afterExponent.takeWhile isSuffixLetter
  let surplus := (afterExponent.drop letters.length).takeWhile language.classes.continuesIdentifier
  { radix := radix
    mark := input.take markLength
    whole := whole
    fraction := fraction
    exponent := exponent
    suffix := letters ++ surplus
    overrun := !surplus.isEmpty }

/-- The number without its suffix. -/
def body (number : NumberText) : List Char :=
  number.mark ++ number.whole ++ pointAndFraction number.fraction
    ++ letterAndExponent number.exponent

def characters (number : NumberText) : List Char := number.body ++ number.suffix

def isFloating (number : NumberText) : Bool :=
  number.fraction.isSome || number.exponent.isSome

def exponentValue (number : NumberText) : Int :=
  match number.exponent with
  | none => 0
  | some (_, '-' :: digits) => -(numeral 10 digits : Int)
  | some (_, '+' :: digits) => numeral 10 digits
  | some (_, digits) => numeral 10 digits

/-- The digits on both sides of the point. -/
def significand (number : NumberText) : List Char :=
  number.whole ++ number.fraction.getD []

/-- A binary exponent has to fit 32 bits. -/
def floatValue? (number : NumberText) : Option Float :=
  let places : Int := (number.fraction.getD []).length
  let exponent := number.exponentValue
  if number.radix = 16 then
    if -0x80000000 ≤ exponent ∧ exponent ≤ 0x7FFFFFFF then
      some (hexadecimalFloat number.significand (exponent - 4 * places))
    else none
  else some (decimalFloat number.significand (exponent - places))

/-- Splits off one letter `u` of either case. -/
def takeUnsigned : List Char → Bool × List Char
  | 'u' :: rest | 'U' :: rest => (true, rest)
  | letters => (false, letters)

/-- Splits off `l` or `ll`, where both letters have one case. -/
def takeLongs : List Char → Nat × List Char
  | 'l' :: 'l' :: rest | 'L' :: 'L' :: rest => (2, rest)
  | 'l' :: rest | 'L' :: rest => (1, rest)
  | letters => (0, letters)

/-- At most one `u`, before or after at most one `l` or `ll`. -/
def integerSuffix? (letters : List Char) : Option IntegerSuffix :=
  let (unsignedFirst, afterFirst) := takeUnsigned letters
  let (longs, afterLongs) := takeLongs afterFirst
  let (unsignedLast, rest) :=
    if unsignedFirst then (false, afterLongs) else takeUnsigned afterLongs
  if rest.isEmpty then some ⟨unsignedFirst || unsignedLast, longs⟩ else none

def floatSuffix? : List Char → Option FloatSuffix
  | [] => some .none
  | ['f'] | ['F'] => some .f
  | ['l'] | ['L'] => some .l
  | _ => none

def judgeFloat (number : NumberText) : Literal × List LexicalProblem :=
  let suffix := floatSuffix? number.suffix
  let value := number.floatValue?
  let problems : List (Bool × LexicalProblem) :=
    [ (number.radix = 16 && number.exponent.isNone, .hexFloatWithoutExponent),
      (suffix.isNone, .invalidFloatSuffix (String.ofList number.suffix)),
      (value.isNone, .malformedFloat (String.ofList number.body)) ]
  (.floating (value.getD 0.0) (suffix.getD .none), (problems.filter Prod.fst).map Prod.snd)

/-- Digits below two to the power of 64, or zero and the problem that there is no such number. -/
def boundedNumeral (radix : Nat) (digits : List Char) : Nat × List LexicalProblem :=
  let value := numeral radix digits
  if digits.isEmpty || 0xFFFFFFFFFFFFFFFF < value then (0, [.integerTooLarge]) else (value, [])

/-- A zero in front of further digits announces octal ones. -/
def integerValue (forms : NumberForms) (number : NumberText) : Nat × List LexicalProblem :=
  match number.radix, number.whole, forms.octal with
  | 10, '0' :: digit :: digits, true =>
    match (digit :: digits).find? fun digit => !isOctalDigit digit with
    | some bad => (0, [.invalidOctalDigit bad])
    | none => boundedNumeral 8 (digit :: digits)
  | radix, digits, _ => boundedNumeral radix digits

def judgeInteger (forms : NumberForms) (number : NumberText) : Literal × List LexicalProblem :=
  let suffix := integerSuffix? number.suffix
  let (value, problems) := number.integerValue forms
  (.integer value (suffix.getD {}),
    if suffix.isNone then .invalidIntegerSuffix (String.ofList number.suffix) :: problems
    else problems)

/-- The value of the number and what is wrong with it. -/
def judge (forms : NumberForms) (number : NumberText) : Literal × List LexicalProblem :=
  let suffix := String.ofList number.suffix
  match number.isFloating, number.overrun with
  | true, true => (.floating 0.0 .none, [.invalidFloatSuffix suffix])
  | false, true => (.integer 0 {}, [.invalidIntegerSuffix suffix])
  | true, false => number.judgeFloat
  | false, false => number.judgeInteger forms

end NumberText

end CFrontEnd
