/-
This file defines the values that rules compute with.
-/

import Statute.Double.Decimal
import Statute.Entries
import Statute.Text.Blank

namespace Statute

/-- The data that rules compute with. A record keeps its fields in the order of their names. -/
inductive Value
  | null
  | bool (value : Bool)
  | int (value : Int64)
  | float (value : Double)
  | string (value : String)
  | list (items : List Value)
  | record (fields : List (String × Value))
  deriving Repr, Inhabited

/-- A record is a collection of named values. -/
abbrev Record := Entries Value

/-- The reasons for which a value does not convert. -/
inductive ValueError
  | invalidDate (text : String)
  | notNumeric (typeName text : String)
  | notADate (typeName text : String)
  | notWritten (reason : String)
  deriving DecidableEq, Repr

namespace ValueError

/-- The name of an error's kind. -/
def kind : ValueError → String
  | invalidDate _ => "InvalidDate"
  | notNumeric _ _ => "NotNumeric"
  | notADate _ _ => "NotADate"
  | notWritten _ => "Json"

def message : ValueError → String
  | invalidDate text => "invalid date: \"" ++ text ++ "\" (expected YYYY-MM-DD or RFC 3339)"
  | notNumeric typeName text => "expected a number, found " ++ typeName ++ " (" ++ text ++ ")"
  | notADate typeName text => "expected a date, found " ++ typeName ++ " (" ++ text ++ ")"
  | notWritten reason => "JSON conversion failed: " ++ reason

end ValueError

namespace Value

/-- The name of a value's kind in messages. -/
def typeName : Value → String
  | null => "null"
  | bool _ => "bool"
  | int _ => "int"
  | float _ => "float"
  | string _ => "string"
  | list _ => "list"
  | record _ => "record"

def isNull : Value → Bool
  | null => true
  | _ => false

def isNumeric : Value → Bool
  | int _ => true
  | float _ => true
  | _ => false

def bool? : Value → Option Bool
  | bool value => some value
  | _ => none

def int? : Value → Option Int64
  | int value => some value
  | _ => none

/-- The number nearest to an integer, or a float itself. -/
def double? : Value → Option Double
  | int value => some (Double.ofInt value.toInt)
  | float value => some value
  | _ => none

def string? : Value → Option String
  | string value => some value
  | _ => none

def list? : Value → Option (List Value)
  | list items => some items
  | _ => none

def record? : Value → Option Record
  | record fields => some fields
  | _ => none

/-- Null, false, zero and everything empty are false. All other values are true, a NaN included. -/
def isTruthy : Value → Bool
  | null => false
  | bool value => value
  | int value => value != 0
  | float value => !value.isZero
  | string value => value != ""
  | list items => !items.isEmpty
  | record fields => !fields.isEmpty

/-- The field of a record. Other values have no fields. -/
def get? (name : String) : Value → Option Value
  | record fields => Entries.get? name fields
  | _ => none

/-- The value behind a row of field names. -/
def getPath? (value : Value) (names : List String) : Option Value :=
  names.foldlM (fun current name => current.get? name) value

/-- A missing value is null. -/
def ofOption : Option Value → Value
  | some value => value
  | none => null

mutual

/-- Strings are written as they are, and numbers without exponents. -/
def text : Value → String
  | null => "null"
  | bool value => if value then "true" else "false"
  | int value => toString value.toInt
  | float value => value.text
  | string value => value
  | list items => "[" ++ String.intercalate ", " (itemTexts items) ++ "]"
  | record fields => "\x7b" ++ String.intercalate ", " (fieldTexts fields) ++ "\x7d"

def itemTexts : List Value → List String
  | [] => []
  | item :: rest => item.text :: itemTexts rest

def fieldTexts : List (String × Value) → List String
  | [] => []
  | (name, value) :: rest => (name ++ ": " ++ value.text) :: fieldTexts rest

end

/-- The value as an operand of arithmetic. Flags count as zero and one, and a string is read as a
number. -/
def toNumber : Value → Except ValueError Double
  | int value => .ok (Double.ofInt value.toInt)
  | float value => .ok value
  | bool value => .ok (Double.ofInt (if value then 1 else 0))
  | string value =>
      match Double.read? (Text.trim value) with
      | some number => .ok number
      | none => .error (.notNumeric "string" value)
  | other => .error (.notNumeric other.typeName other.text)

end Value

end Statute
