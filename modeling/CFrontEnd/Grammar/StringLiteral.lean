import CFrontEnd.Grammar.Parse

/-!
String literals that stand side by side are one. A piece without a prefix takes the encoding of a
piece with one; two different prefixes do not mix.
-/

namespace CFrontEnd

/-- The pieces read so far, and the encoding that the first prefix among them asks for. -/
structure StringPieces where
  pieces : Array (List Nat × Encoding) := #[]
  encoding : Encoding := .plain

namespace StringPieces

/-- Whether a piece in `encoding` can follow. -/
def admits (soFar : StringPieces) (encoding : Encoding) : Bool :=
  encoding == .plain || soFar.encoding == .plain || soFar.encoding == encoding

def push (soFar : StringPieces) (units : List Nat) (encoding : Encoding) : StringPieces :=
  { pieces := soFar.pieces.push (units, encoding)
    encoding := if encoding != .plain && soFar.admits encoding then encoding else soFar.encoding }

/-- The bytes of a piece without prefix, encoded again for a wide literal. -/
def widen (encoding : Encoding) (bytes : List Nat) : List Nat :=
  (Encoding.plain.decode bytes).toList.flatMap encoding.units

def units (soFar : StringPieces) : List Nat :=
  soFar.pieces.toList.flatMap fun (units, encoding) =>
    if encoding == .plain && !soFar.encoding.isNarrow then widen soFar.encoding units else units

end StringPieces

namespace Parse

/-- One or more string literals. -/
def stringPieces : Parse StringPieces := do
  if (← peek).kind != .literal .string then unexpected "string literal"
  else
    iterate {} fun soFar => do
      let token ← peek
      if token.kind != .literal .string then return .done soFar
      else
        discard advance
        match token.value with
        | some (.string units encoding) =>
          if !soFar.admits encoding then complain token.location .mixedStringEncodings
          return .yield (soFar.push units encoding)
        | _ => return .yield soFar

def stringLiteral : Parse Node := do
  let start ← location
  let pieces ← stringPieces
  return .leaf .stringLiteral start (.literal (.string pieces.units pieces.encoding))

/-- The text of a string literal, where the grammar wants a text and not a value. -/
def stringText : Parse String := do
  let pieces ← stringPieces
  return pieces.encoding.decode pieces.units

end Parse

end CFrontEnd
