import CFrontEnd.Text.Character

/-!
Floating-point numbers from their digits. Decimal digits give the double nearest to the exact value.
Hexadecimal digits are gathered one by one, so each digit past the precision of a double rounds once.
-/

namespace CFrontEnd

def infinity : Float := Float.ofBits 0x7FF0000000000000

/-- `digits`, read as a decimal integer, times ten to the power of `exponent`. -/
def decimalFloat (digits : List Char) (exponent : Int) : Float :=
  let significant := digits.dropWhile (· == '0')
  let magnitude := significant.length + exponent
  if significant.isEmpty || magnitude < -400 then 0.0
  else if 400 < magnitude then infinity
  else Float.ofScientific (numeral 10 significant) (decide (exponent < 0)) exponent.natAbs

/-- Two to the power of `exponent`, which has to be one of a normal double. -/
def powerOfTwo (exponent : Int) : Float :=
  Float.ofBits ((exponent + 1023).toNat <<< 52).toUInt64

/-- Multiplies by a power of two in steps of at most a thousand, so that no factor overflows. -/
def scaleByTwo (value : Float) (exponent : Int) : Float :=
  if exponent = 0 then value
  else
    let step := max (-1000) (min 1000 exponent)
    scaleByTwo (value * powerOfTwo step) (exponent - step)
termination_by exponent.natAbs
decreasing_by omega

/-- `digits`, read as a hexadecimal integer, times two to the power of `exponent`. -/
def hexadecimalFloat (digits : List Char) (exponent : Int) : Float :=
  let significand := digits.foldl
    (fun value digit => value * 16.0 + Float.ofNat ((hexDigitValue? digit).getD 0)) 0.0
  scaleByTwo significand (max (-2200) (min 2200 exponent))

end CFrontEnd
