/-
This file defines the texts that refer to paths, and the names that paths consist of.
-/

namespace Statute

/-- The path that a text refers to. -/
def referencePath? (text : String) : Option String :=
  match text.toList with
  | '$' :: path => some (String.ofList path)
  | _ => none

/-- The text that refers to a path. -/
def referenceText (path : String) : String :=
  "$" ++ path

/-- The first name of a path. -/
def pathRoot (path : String) : String :=
  String.ofList (path.toList.takeWhile fun char => char != '.')

/-- The parts between dots. -/
def splitDots : List Char → List Char × List (List Char)
  | [] => ([], [])
  | char :: rest =>
      let (first, others) := splitDots rest
      if char = '.' then ([], first :: others) else (char :: first, others)

/-- The names of a path behind its first name. A path without dots has none. -/
def pathTail (path : String) : List String :=
  (splitDots path.toList).2.map String.ofList

end Statute
