/-
This file defines binary64 numbers with exact integer arithmetic.
-/

namespace Statute

/-- Every exponent has this many numbers of each sign. -/
def binade : Nat := Nat.pow 2 52

/-- The rank of infinity follows the rank of the largest finite number. -/
def infinityRank : Nat := 2047 * binade

/-- A number that is not a NaN has a sign and a rank. The rank counts the nonnegative numbers below
the absolute value, so a larger rank is a larger absolute value. All NaNs are one value. -/
inductive Double
  | nan
  | signed (negative : Bool) (rank : Fin (infinityRank + 1))
  deriving DecidableEq, Repr, Inhabited

namespace Double

/-- A rank beyond infinity stands for infinity. -/
def ofRank (negative : Bool) (rank : Nat) : Double :=
  .signed negative ⟨min rank infinityRank, Nat.lt_succ_of_le (Nat.min_le_right _ _)⟩

def zero : Double := ofRank false 0

def infinity : Double := ofRank false infinityRank

/-- The absolute value of each rank is a whole number of units of `2 ^ -1074`. Infinity follows
the same rule, as `2 ^ 1024`. -/
def units (rank : Nat) : Nat :=
  if rank < binade then rank
  else (binade + rank % binade) * Nat.pow 2 (rank / binade - 1)

/-- One is this many units. -/
def unitsOfOne : Nat := Nat.pow 2 1074

/-- The nearest whole number to a quotient, the even one of two equally near. -/
def divideToEven (numerator denominator : Nat) : Nat :=
  let quotient := numerator / denominator
  let twice := 2 * (numerator % denominator)
  if twice < denominator then quotient
  else if denominator < twice then quotient + 1
  else quotient + quotient % 2

/-- The rank that is nearest to a quotient of units. The number of dropped bits leaves 53 of them,
and a carry out of the last of these reaches the next power of two by itself. -/
def nearestRank (numerator denominator : Nat) : Nat :=
  let dropped := (numerator / denominator).log2 - 52
  dropped * binade + divideToEven numerator (denominator * Nat.pow 2 dropped)

/-- The number nearest to a quotient of units. -/
def ofUnits (negative : Bool) (numerator denominator : Nat) : Double :=
  ofRank negative (nearestRank numerator denominator)

/-- The number nearest to a quotient of whole numbers. -/
def ofRatio (negative : Bool) (numerator denominator : Nat) : Double :=
  ofUnits negative (numerator * unitsOfOne) denominator

/-- The number nearest to an integer. -/
def ofInt (value : Int) : Double :=
  ofRatio (value < 0) value.natAbs 1

/-- The place of a number in the order of all numbers. Both zeros have place zero. -/
def place : Double → Option Int
  | nan => none
  | signed negative rank => some (if negative then -(rank.val : Int) else rank.val)

/-- The comparison of two numbers. A NaN compares with nothing. -/
def compare (first second : Double) : Option Ordering :=
  match first.place, second.place with
  | some left, some right => some (Ord.compare left right)
  | _, _ => none

/-- Numeric equality. The zeros are equal and a NaN equals nothing. -/
def numericEq (first second : Double) : Bool :=
  compare first second == some .eq

/-- Numeric order. A NaN is below nothing. -/
def isLT (first second : Double) : Bool :=
  compare first second == some .lt

/-- Numeric order or equality. -/
def isLE (first second : Double) : Bool :=
  isLT first second || numericEq first second

def isNaN : Double → Bool
  | nan => true
  | signed _ _ => false

def isFinite : Double → Bool
  | nan => false
  | signed _ rank => rank.val != infinityRank

def isZero : Double → Bool
  | nan => false
  | signed _ rank => rank.val == 0

def neg : Double → Double
  | nan => nan
  | signed negative rank => signed (!negative) rank

def abs : Double → Double
  | nan => nan
  | signed _ rank => signed false rank

/-- The units of a number with their sign. -/
def signedUnits (negative : Bool) (rank : Nat) : Int :=
  if negative then -(units rank : Int) else units rank

/-- An exact zero sum is negative only when both operands are. -/
def add : Double → Double → Double
  | signed firstNegative first, signed secondNegative second =>
      if first.val = infinityRank then
        if second.val = infinityRank ∧ firstNegative ≠ secondNegative then nan
        else signed firstNegative first
      else if second.val = infinityRank then signed secondNegative second
      else
        let sum := signedUnits firstNegative first.val + signedUnits secondNegative second.val
        if sum = 0 then ofRank (firstNegative && secondNegative) 0
        else ofUnits (sum < 0) sum.natAbs 1
  | _, _ => nan

def sub (first second : Double) : Double :=
  add first (neg second)

/-- Zero times infinity has no value. -/
def mul : Double → Double → Double
  | signed firstNegative first, signed secondNegative second =>
      let negative := firstNegative != secondNegative
      if first.val = infinityRank ∨ second.val = infinityRank then
        if first.val = 0 ∨ second.val = 0 then nan else ofRank negative infinityRank
      else ofUnits negative (units first.val * units second.val) unitsOfOne
  | _, _ => nan

/-- A quotient of two zeros or of two infinities has no value. -/
def div : Double → Double → Double
  | signed firstNegative first, signed secondNegative second =>
      let negative := firstNegative != secondNegative
      if first.val = infinityRank then
        if second.val = infinityRank then nan else ofRank negative infinityRank
      else if second.val = infinityRank then ofRank negative 0
      else if second.val = 0 then
        if first.val = 0 then nan else ofRank negative infinityRank
      else ofUnits negative (units first.val * unitsOfOne) (units second.val)
  | _, _ => nan

instance : Neg Double := ⟨neg⟩
instance : Add Double := ⟨add⟩
instance : Sub Double := ⟨sub⟩
instance : Mul Double := ⟨mul⟩
instance : Div Double := ⟨div⟩

/-- The larger operand. A NaN gives way to the other operand. Of equal operands, which may be zeros
of different sign, the second is taken. -/
def max (first second : Double) : Double :=
  if second.isNaN || isLT second first then first else second

/-- The smaller operand. A NaN gives way to the other operand. Of equal operands, which may be zeros
of different sign, the second is taken. -/
def min (first second : Double) : Double :=
  if second.isNaN || isLT first second then first else second

/-- The nearest whole number, away from zero when two are equally near. -/
def round : Double → Double
  | nan => nan
  | signed negative rank =>
      if rank.val = infinityRank then signed negative rank
      else ofRatio negative ((2 * units rank.val + unitsOfOne) / (2 * unitsOfOne)) 1

/-- The whole number toward zero, within the range of 64-bit integers. A NaN becomes zero. -/
def toInt64 : Double → Int64
  | nan => 0
  | signed negative rank =>
      let whole : Int := (units rank.val / unitsOfOne : Nat)
      if whole ≤ Int64.maxValue.toInt then Int64.ofInt (if negative then -whole else whole)
      else if negative then Int64.minValue
      else Int64.maxValue

/-- True for finite numbers without a fraction. -/
def isWhole : Double → Bool
  | nan => false
  | signed _ rank => rank.val != infinityRank && units rank.val % unitsOfOne == 0

/-- Repeated squaring multiplies the result by the current square for each odd exponent. -/
def powerSteps (result square : Double) (exponent : Nat) : Nat → Double
  | 0 => result
  | steps + 1 =>
      powerSteps (if exponent % 2 = 1 then result * square else result) (square * square)
        (exponent / 2) steps

/-- A power by repeated squaring. A negative exponent takes the reciprocal of the positive power. -/
def power (base : Double) (exponent : Int) : Double :=
  let count := exponent.natAbs
  let positive := powerSteps (ofInt 1) base count (if count = 0 then 0 else count.log2 + 1)
  if exponent < 0 then ofInt 1 / positive else positive

/-- A value is rounded at a number of decimal places, away from zero when two are equally near. -/
def roundTo (value : Double) (places : Int) : Double :=
  let factor := power (ofInt 10) places
  round (value * factor) / factor

/-- The bit of the sign, above the bits of the rank. -/
def signBit : Nat := Nat.pow 2 63

/-- The interchange bits. A NaN has the quiet pattern without a sign. -/
def toBits : Double → UInt64
  | nan => 0x7ff8000000000000
  | signed negative rank => UInt64.ofNat (rank.val + if negative then signBit else 0)

/-- Every pattern above infinity is the NaN. -/
def ofBits (bits : UInt64) : Double :=
  let rank := bits.toNat % signBit
  if infinityRank < rank then nan else ofRank (signBit ≤ bits.toNat) rank

end Double

end Statute
