/-!
Characters as the code units of the Unicode encoding forms, and the way back. Bytes that are not
well-formed UTF-8 decode to the replacement character, one for each longest piece that could have
begun a character.
-/

namespace CFrontEnd

def replacementCharacter : Char := '\uFFFD'

/-- The character of a Unicode scalar value; surrogates and numbers past U+10FFFF have none. -/
def scalarValue? (value : Nat) : Option Char :=
  if h : value.isValidChar then some (Char.ofNatAux value h) else none

def utf8Units (character : Char) : List Nat :=
  let value := character.toNat
  if value < 0x80 then [value]
  else if value < 0x800 then [0xC0 + value / 0x40, 0x80 + value % 0x40]
  else if value < 0x10000 then
    [0xE0 + value / 0x1000, 0x80 + value / 0x40 % 0x40, 0x80 + value % 0x40]
  else
    [0xF0 + value / 0x40000, 0x80 + value / 0x1000 % 0x40, 0x80 + value / 0x40 % 0x40,
      0x80 + value % 0x40]

def utf16Units (character : Char) : List Nat :=
  let value := character.toNat
  if value < 0x10000 then [value]
  else [0xD800 + (value - 0x10000) / 0x400, 0xDC00 + (value - 0x10000) % 0x400]

/-- For the first byte of a character: the bits it carries, how many bytes follow it, and the range
of the second byte. -/
def leadByte (byte : Nat) : Option (Nat × Nat × Nat × Nat) :=
  if byte < 0x80 then some (byte, 0, 0x80, 0xBF)
  else if 0xC2 ≤ byte ∧ byte ≤ 0xDF then some (byte - 0xC0, 1, 0x80, 0xBF)
  else if byte = 0xE0 then some (0, 2, 0xA0, 0xBF)
  else if byte = 0xED then some (0xD, 2, 0x80, 0x9F)
  else if 0xE1 ≤ byte ∧ byte ≤ 0xEF then some (byte - 0xE0, 2, 0x80, 0xBF)
  else if byte = 0xF0 then some (0, 3, 0x90, 0xBF)
  else if byte = 0xF4 then some (4, 3, 0x80, 0x8F)
  else if 0xF1 ≤ byte ∧ byte ≤ 0xF3 then some (byte - 0xF0, 3, 0x80, 0xBF)
  else none

/-- Gathers the bytes that complete a character: how many were taken, and the character's value if
all of them were there. -/
def continueCharacter : Nat → Nat → Nat → Nat → List Nat → Nat × Option Nat
  | value, 0, _, _, _ => (0, some value)
  | _, _ + 1, _, _, [] => (0, none)
  | value, missing + 1, low, high, byte :: rest =>
    if low ≤ byte ∧ byte ≤ high then
      let (taken, whole) := continueCharacter (value * 0x40 + (byte - 0x80)) missing 0x80 0xBF rest
      (taken + 1, whole)
    else (0, none)

/-- The character that begins with byte `first`, and how many of the bytes after it belong to it. -/
def decodeCharacter (first : Nat) (rest : List Nat) : Nat × Char :=
  match leadByte first with
  | none => (0, replacementCharacter)
  | some (value, missing, low, high) =>
    let (taken, whole) := continueCharacter value missing low high rest
    (taken, (whole.bind scalarValue?).getD replacementCharacter)

def decodeUtf8 : List Nat → List Char
  | [] => []
  | first :: rest =>
    let (taken, character) := decodeCharacter first rest
    character :: decodeUtf8 (rest.drop taken)
termination_by bytes => bytes.length
decreasing_by simp only [List.length_drop, List.length_cons]; omega

/-- The text of well-formed UTF-8, if `bytes` is that. -/
def decodeUtf8? (bytes : List Nat) : Option String :=
  let characters := decodeUtf8 bytes
  if characters.flatMap utf8Units = bytes then some (String.ofList characters) else none

end CFrontEnd
