/-
This file compares values with each other.
-/

import Statute.Value.Basic

namespace Statute.Value

mutual

/-- Values of one kind with equal contents are the same. Floats are the same when they are
numerically equal, and an integer is never the same as a float. -/
def same : Value → Value → Bool
  | null, null => true
  | bool first, bool second => first == second
  | int first, int second => first == second
  | float first, float second => first.numericEq second
  | string first, string second => first == second
  | list first, list second => sameItems first second
  | record first, record second => sameFields first second
  | _, _ => false

def sameItems : List Value → List Value → Bool
  | [], [] => true
  | first :: firstRest, second :: secondRest => same first second && sameItems firstRest secondRest
  | _, _ => false

def sameFields : List (String × Value) → List (String × Value) → Bool
  | [], [] => true
  | (firstName, first) :: firstRest, (secondName, second) :: secondRest =>
      firstName == secondName && same first second && sameFields firstRest secondRest
  | _, _ => false

end

mutual

/-- Numbers are loosely equal when their nearest floats are equal. Lists and records are compared
item by item, and other values must be the same. -/
def looseEq : Value → Value → Bool
  | int first, int second =>
      (Double.ofInt first.toInt).numericEq (Double.ofInt second.toInt)
  | int first, float second => (Double.ofInt first.toInt).numericEq second
  | float first, int second => first.numericEq (Double.ofInt second.toInt)
  | float first, float second => first.numericEq second
  | list first, list second => looseEqItems first second
  | record first, record second => looseEqFields first second
  | first, second => same first second

def looseEqItems : List Value → List Value → Bool
  | [], [] => true
  | first :: firstRest, second :: secondRest =>
      looseEq first second && looseEqItems firstRest secondRest
  | _, _ => false

def looseEqFields : List (String × Value) → List (String × Value) → Bool
  | [], [] => true
  | (firstName, first) :: firstRest, (secondName, second) :: secondRest =>
      firstName == secondName && looseEq first second && looseEqFields firstRest secondRest
  | _, _ => false

end

/-- Numbers compare through their nearest floats, strings by their characters, and false comes
before true. No other two values are ordered. -/
def compare (first second : Value) : Option Ordering :=
  match first.double?, second.double? with
  | some left, some right => left.compare right
  | _, _ =>
      match first, second with
      | string left, string right => some (Ord.compare left right)
      | bool left, bool right => some (Ord.compare left right)
      | _, _ => none

end Statute.Value
