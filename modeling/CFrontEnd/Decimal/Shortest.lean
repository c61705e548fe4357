/-!
The shortest decimal number that stands for a double. All real numbers that are nearer to a double
than to any other make up its interval. Of the powers of ten, the largest is sought that has a
multiple in the interval, and of its multiples the one nearest to the double.
-/

namespace CFrontEnd

/-- What the bits of a double say. A finite one is `significand * 2 ^ (scale - 1074)`. -/
inductive DoubleValue
  | notANumber
  | infinite
  | finite (significand scale : Nat)
  deriving DecidableEq, Repr

/-- The sign bit, and the value without it. -/
def DoubleValue.ofBits (bits : Nat) : Bool × DoubleValue :=
  let fraction := bits % (1 <<< 52)
  let exponent := (bits >>> 52) % 0x800
  let value : DoubleValue :=
    if exponent = 2047 then if fraction = 0 then .infinite else .notANumber
    else if exponent = 0 then .finite fraction 0
    else .finite ((1 <<< 52) + fraction) (exponent - 1)
  (bits.testBit 63, value)

/-- `coefficient * 10 ^ exponent`. -/
structure Decimal where
  coefficient : Nat
  exponent : Int
  deriving DecidableEq, Repr

/-- The real numbers from `low / unit` to `high / unit`, around `value / unit`. -/
structure RoundingInterval where
  low : Nat
  value : Nat
  high : Nat
  unit : Nat
  /-- Whether both ends belong to the interval. -/
  isClosed : Bool
  deriving DecidableEq, Repr

namespace RoundingInterval

/-- The interval of a positive double. Its ends lie halfway to the neighbours, and the neighbour
below a power of two is only half as far away. Ties go to even significands. -/
def ofDouble (significand scale : Nat) : RoundingInterval :=
  let isPower := significand = 1 <<< 52 ∧ 0 < scale
  { low := (4 * significand - if isPower then 1 else 2) <<< scale
    value := (4 * significand) <<< scale
    high := (4 * significand + 2) <<< scale
    unit := 4 <<< 1074
    isClosed := significand % 2 = 0 }

/-- Whether `point / unit` belongs to the interval. -/
def contains (interval : RoundingInterval) (point : Nat) : Bool :=
  if interval.isClosed then interval.low ≤ point && point ≤ interval.high
  else interval.low < point && point < interval.high

/-- The interval times a natural number. -/
def scaled (interval : RoundingInterval) (factor : Nat) : RoundingInterval :=
  { interval with
    low := interval.low * factor
    value := interval.value * factor
    high := interval.high * factor }

/-- The factor of the multiple of `step / unit` in the interval that is nearest to the value; of two
equally near ones the larger. -/
def multipleOf? (interval : RoundingInterval) (step : Nat) : Option Nat :=
  let below := interval.value / step
  let above := below + 1
  match interval.contains (below * step), interval.contains (above * step) with
  | true, true =>
    if interval.value - below * step < above * step - interval.value then some below
    else some above
  | true, false => some below
  | false, true => some above
  | false, false => none

/-- The nearest multiple of a power of ten in the interval. -/
def pointOn? (interval : RoundingInterval) (exponent : Int) : Option Decimal :=
  let coefficient? :=
    match exponent with
    | .ofNat power => interval.multipleOf? (interval.unit * Nat.pow 10 power)
    | .negSucc power => (interval.scaled (Nat.pow 10 (power + 1))).multipleOf? interval.unit
  coefficient?.map fun coefficient => ⟨coefficient, exponent⟩

/-- The first point on the powers of ten from `exponent` downward, of which `count` are tried. -/
def firstPoint? (interval : RoundingInterval) (exponent : Int) : Nat → Option Decimal
  | 0 => none
  | count + 1 =>
    match interval.pointOn? exponent with
    | some point => some point
    | none => firstPoint? interval (exponent - 1) count

end RoundingInterval

/-- The shortest decimal for a positive double. No double reaches `10 ^ 309`, and no interval is so
narrow that it lies between two multiples of `10 ^ -343`. -/
def shortestDecimal (significand scale : Nat) : Decimal :=
  ((RoundingInterval.ofDouble significand scale).firstPoint? 309 653).getD ⟨0, 0⟩

end CFrontEnd
