/-
This file reads the numbers of documents. A number with a point or an exponent collects its leading
digits in 64 bits and is then scaled by powers of ten, so its last bit may differ from the nearest
float when it has more than fifteen digits or a large exponent.
-/

import Statute.Document.Basic

namespace Statute.Document

/-- Digits join the collected ones as long as the result fits in 64 bits. The answer also counts the
digits that joined. -/
def gatherDigits (collected : Nat) : List Char → Nat × Nat
  | [] => (collected, 0)
  | digit :: rest =>
      let next := collected * 10 + (digit.toNat - '0'.toNat)
      if next < UInt64.size then
        let (total, count) := gatherDigits next rest
        (total, count + 1)
      else (collected, 0)

/-- A float is scaled by a power of ten. Powers beyond `10 ^ 308` are taken in steps, and two such
steps down reach zero from any collected digits. A number too large for a float is refused. -/
def scale? (value : Double) (exponent : Int) : Nat → Option Double
  | 0 => if exponent < 0 then some Double.zero else none
  | steps + 1 =>
      if exponent.natAbs ≤ 308 then
        let power := Double.ofRatio false (Nat.pow 10 exponent.natAbs) 1
        if 0 ≤ exponent then
          let product := value * power
          if product.isFinite then some product else none
        else some (value / power)
      else if value.isZero then some value
      else if 0 ≤ exponent then none
      else scale? (value / Double.ofRatio false (Nat.pow 10 308) 1) (exponent + 308) steps

/-- The float of collected digits, an exponent and a sign. -/
def scaled? (negative : Bool) (digits : Nat) (exponent : Int) : Option Document :=
  (scale? (Double.ofInt digits) exponent 3).map fun value =>
    decimal (if negative then -value else value)

/-- A whole number is an integer when it fits in 64 bits. The negative zero is a float. -/
def wholeNumber (negative : Bool) (digits : Nat) : Document :=
  if negative then
    if digits = 0 ∨ -(digits : Int) < Int64.minValue.toInt then decimal (-(Double.ofInt digits))
    else integer (-(digits : Int))
  else integer digits

/-- The parts of a written number. -/
structure Numeral where
  negative : Bool
  whole : List Char
  fraction : Option (List Char)
  exponent : Option Int

namespace Numeral

/-- A whole part has at least one digit and no needless zero in front. -/
def readWhole? (chars : List Char) : Option (List Char × List Char) :=
  let whole := chars.takeWhile Char.isDigit
  if whole.isEmpty || (whole.head? == some '0' && whole.length != 1) then none
  else some (whole, chars.dropWhile Char.isDigit)

/-- A fraction is a point and at least one digit. -/
def readFraction? : List Char → Option (Option (List Char) × List Char)
  | '.' :: rest =>
      let fraction := rest.takeWhile Char.isDigit
      if fraction.isEmpty then none else some (some fraction, rest.dropWhile Char.isDigit)
  | rest => some (none, rest)

/-- The digits of an exponent, at least one, with the sign that was read before them. -/
def readPower? (negative : Bool) (chars : List Char) : Option (Option Int × List Char) :=
  let digits := chars.takeWhile Char.isDigit
  if digits.isEmpty then none
  else
    let size : Int := Double.digitsValue digits
    some (some (if negative then -size else size), chars.dropWhile Char.isDigit)

/-- An exponent is a mark, an optional sign and digits. -/
def readExponent? : List Char → Option (Option Int × List Char)
  | mark :: rest =>
      if mark = 'e' ∨ mark = 'E' then
        match rest with
        | '-' :: digits => readPower? true digits
        | '+' :: digits => readPower? false digits
        | digits => readPower? false digits
      else some (none, mark :: rest)
  | [] => some (none, [])

/-- A number may start with a minus sign, but not with a plus sign. -/
def read? (chars : List Char) : Option (Numeral × List Char) := do
  let negative := chars.head? == some '-'
  let (whole, afterWhole) ← readWhole? (if negative then chars.tail else chars)
  let (fraction, afterFraction) ← readFraction? afterWhole
  let (exponent, rest) ← readExponent? afterFraction
  return (⟨negative, whole, fraction, exponent⟩, rest)

/-- A number without fraction and exponent whose digits fit in 64 bits is whole. -/
def toDocument? (numeral : Numeral) : Option Document :=
  let (collected, joined) := gatherDigits 0 numeral.whole
  let raised := numeral.whole.length - joined
  if numeral.fraction.isNone && numeral.exponent.isNone && raised == 0 then
    some (wholeNumber numeral.negative collected)
  else
    let (digits, lowered) := gatherDigits collected (numeral.fraction.getD [])
    scaled? numeral.negative digits ((raised : Int) - lowered + numeral.exponent.getD 0)

end Numeral

end Statute.Document
