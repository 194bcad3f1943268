/-
This file compares the result that a citizen claims with the computed one.
-/

import Statute.Value.Order

namespace Statute

/-- Numbers agree within this share of the computed number. -/
def tolerance : Double := Double.ofRatio false 1 100

namespace Value

/-- A computed number agrees with numbers near it, and a computed zero only with zero. Other values
agree when they are loosely equal. -/
def agrees (claimed verified : Value) : Bool :=
  match verified.double? with
  | none => claimed.looseEq verified
  | some expected =>
      match claimed.double? with
      | none => false
      | some actual =>
          if expected.isZero then actual.isZero
          else ((expected - actual) / expected).abs.isLE tolerance

end Value

namespace Record

/-- Two results agree when they have the same names and agree in each of them. -/
def agrees (claimed verified : Record) : Bool :=
  claimed.length == verified.length &&
    verified.all fun (name, expected) =>
      match Entries.get? name claimed with
      | some actual => actual.agrees expected
      | none => false

end Record

end Statute
