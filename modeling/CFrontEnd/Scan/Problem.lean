import CFrontEnd.Text.Character

/-!
What can be wrong with the characters of a text.
-/

namespace CFrontEnd

inductive LexicalProblem
  | unterminatedComment
  | stray (character : Char)
  | invalidIntegerSuffix (suffix : String)
  | invalidFloatSuffix (suffix : String)
  | hexFloatWithoutExponent
  | malformedFloat (constant : String)
  | invalidOctalDigit (digit : Char)
  | integerTooLarge
  | unterminatedCharacter
  | unterminatedString
  | emptyCharacter
  | hexEscapeWithoutDigits
  | hexEscapeOutOfRange
  | octalEscapeOutOfRange
  | incompleteUniversalName
  | invalidUniversalCharacter
  | unknownEscape (character : Char)
  deriving DecidableEq, Repr

def LexicalProblem.message : LexicalProblem → String
  | .unterminatedComment => "unterminated comment"
  | .stray character =>
    let shown :=
      if isAscii character && !isAsciiGraphic character then "\\" ++ octalDigits character.toNat
      else String.singleton character
    "stray '" ++ shown ++ "' in program"
  | .invalidIntegerSuffix suffix => "invalid suffix '" ++ suffix ++ "' on integer constant"
  | .invalidFloatSuffix suffix => "invalid suffix '" ++ suffix ++ "' on floating constant"
  | .hexFloatWithoutExponent => "hexadecimal floating constant requires an exponent"
  | .malformedFloat constant => "malformed floating constant '" ++ constant ++ "'"
  | .invalidOctalDigit digit => "invalid digit '" ++ String.singleton digit ++ "' in octal constant"
  | .integerTooLarge => "integer literal is too large to be represented in any integer type"
  | .unterminatedCharacter => "unterminated character constant"
  | .unterminatedString => "unterminated string literal"
  | .emptyCharacter => "empty character constant"
  | .hexEscapeWithoutDigits => "\\x used with no following hex digits"
  | .hexEscapeOutOfRange => "hex escape sequence out of range"
  | .octalEscapeOutOfRange => "octal escape sequence out of range"
  | .incompleteUniversalName => "incomplete universal character name"
  | .invalidUniversalCharacter => "invalid universal character"
  | .unknownEscape character => "unknown escape sequence '\\" ++ String.singleton character ++ "'"

end CFrontEnd
