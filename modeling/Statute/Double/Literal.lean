/-
This file writes floats so that they differ from integers.
-/

import Statute.Double.Decimal

namespace Statute

namespace Decimal

/-- Scientific notation has one digit before its point, and no point behind a single digit. -/
def scientific (decimal : Decimal) : String :=
  let digits := Nat.toDigits 10 decimal.digits
  let fraction :=
    match digits.drop 1 with
    | [] => []
    | others => '.' :: others
  String.ofList (digits.take 1 ++ fraction) ++ "e" ++
    toString (decimal.exponent + ((digits.length : Int) - 1))

end Decimal

namespace Double

/-- Numbers from a tenth of a thousandth below `10 ^ 16` are written positionally. -/
def isPlain (value : Double) : Bool :=
  value.isZero || ((ofRatio false 1 10000).isLE value.abs && value.abs.isLT (ofRatio false (Nat.pow 10 16) 1))

/-- A number has at least one place behind its point, or an exponent. -/
def literal : Double → String
  | nan => "NaN"
  | signed negative rank =>
      let value := signed negative rank
      if value.isPlain then
        if value.text.toList.contains '.' then value.text else value.text ++ ".0"
      else if value.isFinite then
        (if negative then "-" else "") ++ (shortest rank.val).scientific
      else value.text

end Double

end Statute
