import CFrontEnd.Scan.Problem
import CFrontEnd.Source.Buffer
import CFrontEnd.Token.Literal

/-!
The inside of string and character literals. Simple and numeric escapes name one code unit;
universal names and raw characters name a character, which the literal's encoding turns into units.
-/

namespace CFrontEnd

/-- What stands after an escape character: how far it reaches, its units, and what is wrong. -/
structure EscapeReading where
  length : Nat
  units : List Nat := []
  problem : Option LexicalProblem := none
  deriving DecidableEq, Repr

namespace EscapeReading

def simple? (character : Char) : Option Nat :=
  match character with
  | 'n' => some 0x0A
  | 't' => some 0x09
  | 'r' => some 0x0D
  | 'a' => some 0x07
  | 'b' => some 0x08
  | 'f' => some 0x0C
  | 'v' => some 0x0B
  | '\\' | '\'' | '"' | '?' => some character.toNat
  | _ => none

/-- A number too large for a code unit counts as the largest unit. -/
def numeric (encoding : Encoding) (length value : Nat) (tooLarge : LexicalProblem) : EscapeReading :=
  if encoding.maxUnit < value then ⟨length, [encoding.maxUnit], some tooLarge⟩
  else ⟨length, [value], none⟩

def universal (encoding : Encoding) (wanted : Nat) (rest : List Char) : EscapeReading :=
  let digits := (rest.take wanted).takeWhile isHexDigit
  if digits.length < wanted then ⟨1 + digits.length, [], some .incompleteUniversalName⟩
  else match scalarValue? (numeral 16 digits) with
    | some character => ⟨1 + wanted, encoding.units character, none⟩
    | none => ⟨1 + wanted, [], some .invalidUniversalCharacter⟩

/-- The escape sequence whose escape character stands in front of `input`. -/
def read (encoding : Encoding) : List Char → EscapeReading
  | [] => ⟨0, [], none⟩
  | first :: rest =>
    if isLineEnd first then ⟨0, [], none⟩
    else match simple? first with
      | some unit => ⟨1, [unit], none⟩
      | none =>
        if first == 'x' then
          let digits := rest.takeWhile isHexDigit
          if digits.isEmpty then ⟨1, [], some .hexEscapeWithoutDigits⟩
          else numeric encoding (1 + digits.length) (numeral 16 digits) .hexEscapeOutOfRange
        else if isOctalDigit first then
          let digits := first :: (rest.take 2).takeWhile isOctalDigit
          numeric encoding digits.length (numeral 8 digits) .octalEscapeOutOfRange
        else if first == 'u' then universal encoding 4 rest
        else if first == 'U' then universal encoding 8 rest
        else ⟨1, encoding.units first, some (.unknownEscape first)⟩

end EscapeReading

/-- A literal from after its opening quote on. Each problem comes with the number of the character
at which its escape begins. -/
structure QuotedReading where
  length : Nat
  units : List Nat := []
  terminated : Bool := false
  problems : List (Nat × LexicalProblem) := []
  deriving DecidableEq, Repr

namespace QuotedReading

/-- `input` begins with character number `index` of the token. A literal ends at `quote`, or without
one in front of a line end. -/
def read (encoding : Encoding) (quote escape : Char) (index : Nat) : List Char → QuotedReading
  | [] => ⟨0, [], false, []⟩
  | first :: rest =>
    if first == quote then ⟨1, [], true, []⟩
    else if isLineEnd first then ⟨0, [], false, []⟩
    else if first == escape then
      let sequence := EscapeReading.read encoding rest
      let more := read encoding quote escape (index + 1 + sequence.length) (rest.drop sequence.length)
      { length := 1 + sequence.length + more.length
        units := sequence.units ++ more.units
        terminated := more.terminated
        problems := (sequence.problem.map fun problem => (index, problem)).toList ++ more.problems }
    else
      let more := read encoding quote escape (index + 1) rest
      { more with length := 1 + more.length, units := encoding.units first ++ more.units }
termination_by input => input.length
decreasing_by all_goals simp only [List.length_drop, List.length_cons]; omega

/-- Narrow character constants are the digits of a number in base 256, cut to 32 bits; of a wide one
the last unit counts. -/
def characterValue (encoding : Encoding) (units : List Nat) : Nat :=
  if encoding.isNarrow then units.foldl (fun value unit => (value * 0x100 + unit % 0x100) % 0x100000000) 0
  else units.getLastD 0

def asString (encoding : Encoding) (reading : QuotedReading) : Literal × List (Nat × LexicalProblem) :=
  (.string reading.units encoding,
    reading.problems ++ if reading.terminated then [] else [(0, .unterminatedString)])

def asCharacter (encoding : Encoding) (reading : QuotedReading) :
    Literal × List (Nat × LexicalProblem) :=
  (.character (characterValue encoding reading.units) encoding,
    reading.problems ++
      (if !reading.terminated then [(0, .unterminatedCharacter)]
       else if reading.units.isEmpty then [(0, .emptyCharacter)] else []))

end QuotedReading

end CFrontEnd
