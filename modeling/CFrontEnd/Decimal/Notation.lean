import CFrontEnd.Decimal.Shortest

/-!
How doubles are written: with the fewest digits that read back, and either all places up to the point
or a power of ten behind one leading digit.
-/

namespace CFrontEnd

namespace Decimal

def digits (decimal : Decimal) : List Char := Nat.toDigits 10 decimal.coefficient

/-- The power of ten of the first digit. -/
def leadingExponent (decimal : Decimal) : Int :=
  decimal.digits.length - 1 + decimal.exponent

def zeros (count : Nat) : List Char := List.replicate count '0'

/-- Without a power of ten: the digits in front of the point, and those behind it. -/
def places (decimal : Decimal) : List Char × List Char :=
  match decimal.exponent with
  | .ofNat power => (decimal.digits ++ zeros power, [])
  | .negSucc power =>
    let padded := zeros (power + 2 - decimal.digits.length) ++ decimal.digits
    let whole := padded.length - (power + 1)
    (padded.take whole, padded.drop whole)

/-- A point is written only in front of digits. -/
def withPoint (whole fraction : List Char) : String :=
  String.ofList (if fraction.isEmpty then whole else whole ++ '.' :: fraction)

def positional (decimal : Decimal) : String :=
  let (whole, fraction) := decimal.places
  withPoint whole fraction

/-- Positional with at least one digit behind the point. -/
def fractional (decimal : Decimal) : String :=
  let (whole, fraction) := decimal.places
  withPoint whole (if fraction.isEmpty then ['0'] else fraction)

def scientific (decimal : Decimal) : String :=
  withPoint (decimal.digits.take 1) (decimal.digits.drop 1) ++ "e"
    ++ toString decimal.leadingExponent

end Decimal

/-- The text of a double, of which `written` gives the digits. -/
def doubleText (written : Decimal → String) (value : Float) : String :=
  let (isNegative, magnitude) := DoubleValue.ofBits value.toBits.toNat
  let sign := if isNegative then "-" else ""
  match magnitude with
  | .notANumber => "NaN"
  | .infinite => sign ++ "inf"
  | .finite 0 _ => sign ++ written ⟨0, 0⟩
  | .finite significand scale => sign ++ written (shortestDecimal significand scale)

/-- All places, whatever the size. -/
def positionalText : Float → String := doubleText Decimal.positional

/-- All places from `10 ^ -4` until below `10 ^ 16`, and a power of ten beyond. -/
def compactText : Float → String :=
  doubleText fun decimal =>
    if decimal.coefficient = 0 ∨ (-4 ≤ decimal.leadingExponent ∧ decimal.leadingExponent < 16) then
      decimal.fractional
    else decimal.scientific

end CFrontEnd
