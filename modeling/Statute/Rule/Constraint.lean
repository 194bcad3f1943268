/-
This file fits computed values to the declared types of outputs.
-/

import Statute.Value.Basic

namespace Statute

/-- The numeric bounds of a declared type. -/
structure Constraints where
  unit : Option String
  precision : Option Nat
  min : Option Double
  max : Option Double
  deriving DecidableEq, Repr, Inhabited

/-- A declared type with its bounds. -/
structure TypeSpec where
  valueType : Option String
  constraints : Constraints
  deriving DecidableEq, Repr, Inhabited

namespace Constraints

/-- No constraints at all. -/
def none : Constraints := ⟨.none, .none, .none, .none⟩

/-- Amounts in the smallest unit of a currency are whole. -/
def isMinorCurrency (constraints : Constraints) : Bool :=
  constraints.unit == some "eurocent"

/-- A number of decimal places is read as 32 bits with a sign. -/
def places (precision : Nat) : Int :=
  Int.bmod precision UInt32.size

end Constraints

namespace TypeSpec

/-- True for a declared type of this name. -/
def isType (spec : TypeSpec) (name : String) : Bool :=
  spec.valueType == some name

/-- True when numbers of this type are brought into bounds or made whole. -/
def constrainsNumbers (spec : TypeSpec) : Bool :=
  spec.constraints.precision.isSome || spec.constraints.min.isSome || spec.constraints.max.isSome ||
    spec.constraints.isMinorCurrency || spec.isType "int" || spec.isType "float" ||
    spec.isType "amount" || spec.isType "number"

/-- The number that a value counts as. Flags and collections count as none. -/
def number? : Value → Option Double
  | .string text => Double.read? (Text.trim text)
  | value => value.double?

/-- A number is brought above the minimum, then below the maximum, and then rounded. -/
def bounded (spec : TypeSpec) (number : Double) : Double :=
  let raised :=
    match spec.constraints.min with
    | some least => number.max least
    | none => number
  let lowered :=
    match spec.constraints.max with
    | some most => raised.min most
    | none => raised
  match spec.constraints.precision with
  | some precision => lowered.roundTo (Constraints.places precision)
  | none => lowered

/-- Whole types cut the fraction off. An integer without declared precision stays an integer. -/
def enforceNumber (spec : TypeSpec) (value : Value) (number : Double) : Value :=
  let result := spec.bounded number
  if spec.constraints.isMinorCurrency || spec.isType "int" then .int result.toInt64
  else if value.int?.isSome && spec.constraints.precision.isNone then .int result.toInt64
  else .float result

/-- The value as the declared type shows it. A text type writes every value but null, null counts
as zero in numeric types, and a value that is no number passes unchanged. -/
def enforce (spec : TypeSpec) (value : Value) : Value :=
  if spec.isType "string" then
    match value with
    | .null => .null
    | other => .string other.text
  else
    match value with
    | .null =>
        if spec.isType "int" then .int 0
        else if spec.isType "float" then .float Double.zero
        else .null
    | other =>
        if spec.constrainsNumbers then
          match number? other with
          | some number => spec.enforceNumber other number
          | none => other
        else other

end TypeSpec

end Statute
