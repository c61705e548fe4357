import CFrontEnd.Text.Unicode

/-!
The values of literals: what a constant or a string literal in the text stands for.
-/

namespace CFrontEnd

/-- The encoding of a character or string literal, chosen by the prefix in front of its quote. -/
inductive Encoding
  | plain
  | wide
  | utf8
  | utf16
  | utf32
  deriving DecidableEq, Repr, Inhabited

namespace Encoding

def spelling : Encoding → String
  | .plain => ""
  | .wide => "L"
  | .utf8 => "u8"
  | .utf16 => "u"
  | .utf32 => "U"

/-- The encoding that a word in front of a quote asks for. -/
def ofSpelling? (word : List Char) : Option Encoding :=
  match word with
  | ['L'] => some .wide
  | ['u', '8'] => some .utf8
  | ['u'] => some .utf16
  | ['U'] => some .utf32
  | _ => none

/-- The largest number that fits one code unit. -/
def maxUnit : Encoding → Nat
  | .plain | .utf8 => 0xFF
  | .utf16 => 0xFFFF
  | .wide | .utf32 => 0xFFFFFFFF

/-- A narrow encoding has bytes for code units. -/
def isNarrow : Encoding → Bool
  | .plain | .utf8 => true
  | _ => false

/-- The code units of one character. -/
def units (encoding : Encoding) (character : Char) : List Nat :=
  match encoding with
  | .plain | .utf8 => utf8Units character
  | .utf16 => utf16Units character
  | .wide | .utf32 => [character.toNat]

/-- Code units as text for display. Bytes are read as UTF-8, wider units one by one. -/
def decode (encoding : Encoding) (codeUnits : List Nat) : String :=
  if encoding.isNarrow then String.ofList (decodeUtf8 (codeUnits.map (· % 0x100)))
  else String.ofList (codeUnits.map fun unit => (scalarValue? unit).getD replacementCharacter)

end Encoding

/-- `longs` counts the letters `l`: none, one or two. -/
structure IntegerSuffix where
  isUnsigned : Bool := false
  longs : Nat := 0
  deriving DecidableEq, Repr, Inhabited

inductive FloatSuffix
  | none
  | f
  | l
  deriving DecidableEq, Repr, Inhabited

def FloatSuffix.label : FloatSuffix → String
  | .none => "None"
  | .f => "F"
  | .l => "L"

inductive Literal
  | integer (value : Nat) (suffix : IntegerSuffix)
  | floating (value : Float) (suffix : FloatSuffix)
  | character (value : Nat) (encoding : Encoding)
  | string (units : List Nat) (encoding : Encoding)
  deriving BEq, Repr

end CFrontEnd
