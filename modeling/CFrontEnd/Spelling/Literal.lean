import CFrontEnd.Decimal.Notation
import CFrontEnd.Text.Character
import CFrontEnd.Token.Literal

/-!
How literals are written in C, in ASCII alone. A hexadecimal escape takes in every hexadecimal digit
behind it, so where one follows, the literal is closed and goes on in a second one.
-/

namespace CFrontEnd

def IntegerSuffix.spelling (suffix : IntegerSuffix) : String :=
  (if suffix.isUnsigned then "u" else "")
    ++ match suffix.longs with
      | 0 => ""
      | 1 => "l"
      | _ => "ll"

def FloatSuffix.spelling : FloatSuffix → String
  | .none => ""
  | .f => "f"
  | .l => "L"

/-- A number without a point or a power of ten would be read as an integer. -/
def floatSpelling (value : Float) (suffix : FloatSuffix) : String :=
  let digits := compactText value
  let marked := digits.toList.any fun character =>
    character == '.' || character == 'e' || character == 'E'
  digits ++ (if marked then "" else ".0") ++ suffix.spelling

def hexEscape (unit : Nat) : String := "\\x" ++ hexDigits unit

/-- Letters, digits and the blank stand for themselves. -/
def characterSpelling (value : Nat) (encoding : Encoding) : String :=
  let character := Char.ofNat value
  let isPlain := value < 0x80 && (character.isAlphanum || character == ' ')
  encoding.spelling ++ "'" ++ (if isPlain then String.singleton character else hexEscape value)
    ++ "'"

/-- How a code unit is written in a string literal. -/
inductive UnitSpelling
  | asItself (character : Char)
  | escaped (character : Char)
  | octal (unit : Nat)
  | hexadecimal (unit : Nat)

namespace UnitSpelling

def ofUnit (unit : Nat) : UnitSpelling :=
  let character := Char.ofNat unit
  if unit < 0x80 && (character == '"' || character == '\\') then .escaped character
  else if unit < 0x80 && (isAsciiGraphic character || character == ' ') then .asItself character
  else if unit < 0o1000 then .octal unit
  else .hexadecimal unit

def text : UnitSpelling → String
  | .asItself character => String.singleton character
  | .escaped character => String.ofList ['\\', character]
  | .octal unit => "\\" ++ octalDigits unit
  | .hexadecimal unit => hexEscape unit

/-- Whether a hexadecimal escape in front would take in the beginning of this unit. -/
def extendsHex : UnitSpelling → Bool
  | .asItself character => isHexDigit character
  | _ => false

def endsInHex : UnitSpelling → Bool
  | .hexadecimal _ => true
  | _ => false

end UnitSpelling

/-- What stands between the quotes, with a new literal begun where one is needed. `afterHex` says
whether a hexadecimal escape is in front. -/
def unitTexts (encoding : Encoding) (afterHex : Bool) : List Nat → List String
  | [] => []
  | unit :: rest =>
    let spelling := UnitSpelling.ofUnit unit
    let seam :=
      if afterHex && spelling.extendsHex then "\" " ++ encoding.spelling ++ "\"" else ""
    seam :: spelling.text :: unitTexts encoding spelling.endsInHex rest

def stringSpelling (units : List Nat) (encoding : Encoding) : String :=
  encoding.spelling ++ "\"" ++ String.join (unitTexts encoding false units) ++ "\""

def Literal.spelling : Literal → String
  | .integer value suffix => toString value ++ suffix.spelling
  | .floating value suffix => floatSpelling value suffix
  | .character value encoding => characterSpelling value encoding
  | .string units encoding => stringSpelling units encoding

end CFrontEnd
