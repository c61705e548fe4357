/-!
Character classes and the escapes that make any text printable in ASCII.
-/

namespace CFrontEnd

def isAscii (character : Char) : Bool := character.toNat < 0x80

/-- The visible ASCII characters, the blank excluded. -/
def isAsciiGraphic (character : Char) : Bool :=
  0x21 ≤ character.toNat && character.toNat ≤ 0x7E

def isControl (character : Char) : Bool :=
  character.toNat < 0x20 || (0x7F ≤ character.toNat && character.toNat < 0xA0)

def isOctalDigit (character : Char) : Bool := '0' ≤ character && character ≤ '7'

def isBinaryDigit (character : Char) : Bool := character == '0' || character == '1'

def hexDigitValue? (character : Char) : Option Nat :=
  if '0' ≤ character ∧ character ≤ '9' then some (character.toNat - '0'.toNat)
  else if 'a' ≤ character ∧ character ≤ 'f' then some (character.toNat - 'a'.toNat + 10)
  else if 'A' ≤ character ∧ character ≤ 'F' then some (character.toNat - 'A'.toNat + 10)
  else none

def isHexDigit (character : Char) : Bool := (hexDigitValue? character).isSome

/-- The number that a run of digits spells in `radix`; characters that are no digits count as zero. -/
def numeral (radix : Nat) (digits : List Char) : Nat :=
  digits.foldl (fun value digit => value * radix + (hexDigitValue? digit).getD 0) 0

/-- White space in the sense of the Unicode property of that name. -/
def isWhiteSpace (character : Char) : Bool :=
  let value := character.toNat
  (9 ≤ value && value ≤ 13) || value == 0x20 || value == 0x85 || value == 0xA0 || value == 0x1680
    || (0x2000 ≤ value && value ≤ 0x200A) || value == 0x2028 || value == 0x2029 || value == 0x202F
    || value == 0x205F || value == 0x3000

/-- White space in ASCII, where the vertical tab does not count. -/
def isAsciiWhiteSpace (character : Char) : Bool :=
  character == ' ' || character == '\t' || character == '\n' || character == '\r'
    || character.toNat == 0x0C

def trimEnd (text : String) : String :=
  String.ofList (text.toList.reverse.dropWhile isWhiteSpace).reverse

def lowercaseAscii (text : String) : String := String.ofList (text.toList.map Char.toLower)

def hexDigits (value : Nat) : String := String.ofList (Nat.toDigits 16 value)

/-- Three octal digits, or more where the number needs them. -/
def octalDigits (value : Nat) : String :=
  let digits := Nat.toDigits 8 value
  String.ofList (List.replicate (3 - digits.length) '0' ++ digits)

/-- Quotes, backslashes and all that is not printable ASCII are escaped. -/
def escapeCharacter (character : Char) : String :=
  match character with
  | '\t' => "\\t"
  | '\r' => "\\r"
  | '\n' => "\\n"
  | '\'' => "\\'"
  | '"' => "\\\""
  | '\\' => "\\\\"
  | other =>
    if isAsciiGraphic other || other == ' ' then String.singleton other
    else "\\u\x7b" ++ hexDigits other.toNat ++ "\x7d"

def escapeText (text : String) : String :=
  String.join (text.toList.map escapeCharacter)

end CFrontEnd
