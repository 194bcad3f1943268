/-
This file reads universal identifiers.
-/

namespace Statute.Text

/-- The two cases of hexadecimal digits. -/
def isHex (char : Char) : Bool :=
  ('0' ≤ char && char ≤ '9') || ('a' ≤ char && char ≤ 'f') || ('A' ≤ char && char ≤ 'F')

/-- The hyphens of an identifier split its digits into groups of these lengths. -/
def identifierGroups : List Nat := [8, 4, 4, 4, 12]

/-- Digits in groups, with a hyphen between two groups. -/
def hyphenated (digits : List Char) : List Nat → List Char
  | [] => []
  | [count] => digits.take count
  | count :: counts => digits.take count ++ '-' :: hyphenated (digits.drop count) counts

/-- The digits of an identifier, when they have the given grouping. -/
def ungroup? (chars : List Char) : List Nat → Option (List Char)
  | [] => if chars.isEmpty then some [] else none
  | [count] => if chars.length = count ∧ chars.all isHex then some chars else none
  | count :: counts =>
      let digits := chars.take count
      match chars.drop count with
      | '-' :: rest =>
          if digits.all isHex then (ungroup? rest counts).map (digits ++ ·) else none
      | _ => none

/-- The name space that may come before an identifier, in any case of its letters. -/
def identifierNamespace : String := "urn:uuid:"

/-- True when a text starts with the name space of identifiers. -/
def inNamespace (chars : List Char) : Bool :=
  String.ofList ((chars.take identifierNamespace.length).map Char.toLower) == identifierNamespace

/-- The digits inside an optional name space or inside braces. -/
def identifierDigits? (chars : List Char) : Option (List Char) :=
  if chars.length = 32 then (if chars.all isHex then some chars else none)
  else if chars.length = 36 then ungroup? chars identifierGroups
  else if chars.length = 38 ∧ chars.head? = some '{' ∧ chars.getLast? = some '}' then
    ungroup? (chars.tail.take 36) identifierGroups
  else if chars.length = 45 ∧ inNamespace chars then
    ungroup? (chars.drop identifierNamespace.length) identifierGroups
  else none

/-- A universal identifier in its usual form, with small letters and hyphens. -/
def identifier? (text : String) : Option String :=
  (identifierDigits? text.toList).map fun digits =>
    String.ofList (hyphenated (digits.map Char.toLower) identifierGroups)

end Statute.Text
