/-
This file writes floats as decimals and reads them.
-/

import Statute.Double.Basic

namespace Statute

/-- A decimal stands for its digits times a power of ten. -/
structure Decimal where
  digits : Nat
  exponent : Int
  deriving DecidableEq, Repr

namespace Decimal

/-- The number of digits of a positive number. -/
def digitCount (number : Nat) : Nat :=
  (Nat.toDigits 10 number).length

/-- A trailing zero moves into the exponent. -/
def dropZero (decimal : Decimal) : Decimal :=
  if decimal.digits % 10 = 0 then ⟨decimal.digits / 10, decimal.exponent + 1⟩ else decimal

/-- Positional notation writes all places down to the last digit. -/
def positional (decimal : Decimal) : String :=
  let digits := Nat.toDigits 10 decimal.digits
  if 0 ≤ decimal.exponent then
    String.ofList (digits ++ List.replicate decimal.exponent.toNat '0')
  else
    let places := (-decimal.exponent).toNat
    if places < digits.length then
      let whole := digits.length - places
      String.ofList (digits.take whole ++ '.' :: digits.drop whole)
    else
      String.ofList ('0' :: '.' :: (List.replicate (places - digits.length) '0' ++ digits))

/-- The number nearest to a decimal. A decimal of at least `10 ^ 400` is infinite, and one below
`10 ^ -400` is zero, so only decimals between them are computed. -/
def toDouble (negative : Bool) (decimal : Decimal) : Double :=
  let size := digitCount decimal.digits + decimal.exponent
  if decimal.digits = 0 ∨ size < -400 then Double.ofRank negative 0
  else if 400 < size then Double.ofRank negative infinityRank
  else if 0 ≤ decimal.exponent then
    Double.ofRatio negative (decimal.digits * Nat.pow 10 decimal.exponent.toNat) 1
  else Double.ofRatio negative decimal.digits (Nat.pow 10 (-decimal.exponent).toNat)

end Decimal

namespace Double

/-- The power of ten above a positive finite number. The smallest number times `10 ^ 400` still has
digits before its point. -/
def decimalSize (rank : Nat) : Int :=
  Decimal.digitCount (units rank * Nat.pow 10 400 / unitsOfOne) - 400

/-- A decimal with the given last place that is nearer to this number than to any other. The number
has two neighbours with this place, and the nearer one of those that qualify is taken. A number with
an even rank also owns the middles between itself and its neighbours. -/
def decimalAt? (rank : Nat) (place : Int) : Option Decimal :=
  let scale := Nat.pow 10 (-place).toNat
  let unit := unitsOfOne * Nat.pow 10 place.toNat
  let exact := units rank * scale
  let low := (units (rank - 1) + units rank) * scale
  let high := (units rank + units (rank + 1)) * scale
  let owns (digits : Nat) : Bool :=
    let twice := 2 * digits * unit
    if rank % 2 = 0 then low ≤ twice && twice ≤ high else low < twice && twice < high
  let below := exact / unit
  let above := below + 1
  match owns below, owns above with
  | false, false => none
  | true, false => some ⟨below, place⟩
  | false, true => some ⟨above, place⟩
  | true, true =>
      if 2 * exact < (below + above) * unit then some ⟨below, place⟩ else some ⟨above, place⟩

/-- The shortest decimal that reads back as the number of this rank. Seventeen digits are always
enough. -/
def shortest (rank : Nat) : Decimal :=
  let size := decimalSize rank
  match (List.range 17).findSome? fun index => decimalAt? rank (size - (index + 1 : Nat)) with
  | some decimal => decimal.dropZero
  | none => ⟨0, 0⟩

/-- A number is written with the fewest digits that read back, without an exponent. -/
def text : Double → String
  | nan => "NaN"
  | signed negative rank =>
      let magnitude :=
        if rank.val = infinityRank then "inf"
        else if rank.val = 0 then "0"
        else (shortest rank.val).positional
      if negative then "-" ++ magnitude else magnitude

/-- The value of decimal digits. -/
def digitsValue (digits : List Char) : Nat :=
  digits.foldl (fun value digit => value * 10 + (digit.toNat - '0'.toNat)) 0

/-- The value of a nonempty row of digits and nothing else. -/
def readDigits? (digits : List Char) : Option Nat :=
  if digits.all Char.isDigit && !digits.isEmpty then some (digitsValue digits) else none

/-- An exponent is a row of digits with an optional sign. -/
def readExponent? : List Char → Option Int
  | '+' :: digits => (readDigits? digits).map fun size => (size : Int)
  | '-' :: digits => (readDigits? digits).map fun size => -(size : Int)
  | digits => (readDigits? digits).map fun size => (size : Int)

/-- An unsigned decimal has digits before or after its point, and possibly an exponent. -/
def readDecimal? (chars : List Char) : Option Decimal :=
  let whole := chars.takeWhile Char.isDigit
  let afterWhole := chars.dropWhile Char.isDigit
  let (fraction, rest) :=
    match afterWhole with
    | '.' :: tail => (tail.takeWhile Char.isDigit, tail.dropWhile Char.isDigit)
    | other => ([], other)
  if whole.isEmpty && fraction.isEmpty then none
  else
    let digits := digitsValue (whole ++ fraction)
    match rest with
    | [] => some ⟨digits, -(fraction.length : Int)⟩
    | mark :: tail =>
        if mark = 'e' ∨ mark = 'E' then
          (readExponent? tail).map fun exponent => ⟨digits, exponent - fraction.length⟩
        else none

/-- A number is a decimal or a word for infinity or for no number, with an optional sign. -/
def read? (text : String) : Option Double :=
  let (negative, chars) :=
    match text.toList with
    | '-' :: rest => (true, rest)
    | '+' :: rest => (false, rest)
    | rest => (false, rest)
  let word := String.ofList (chars.map Char.toLower)
  if word = "inf" ∨ word = "infinity" then some (ofRank negative infinityRank)
  else if word = "nan" then some nan
  else (readDecimal? chars).map (Decimal.toDouble negative)

end Double

end Statute
