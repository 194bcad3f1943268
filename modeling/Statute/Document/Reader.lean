/-
This file reads documents.
-/

import Statute.Document.Number
import Statute.Document.Text

namespace Statute.Document

/-- The marks of a document, with its texts, numbers and words. -/
inductive Token
  | openArray
  | closeArray
  | openObject
  | closeObject
  | comma
  | colon
  | text (value : String)
  | leaf (value : Document)

/-- The blanks between marks. -/
def isSpace (char : Char) : Bool :=
  char == ' ' || char == '\n' || char == '\t' || char == '\r'

/-- The first mark of a text that does not start with a blank. -/
def readToken? : List Char → Option (Token × List Char)
  | '[' :: rest => some (.openArray, rest)
  | ']' :: rest => some (.closeArray, rest)
  | '{' :: rest => some (.openObject, rest)
  | '}' :: rest => some (.closeObject, rest)
  | ',' :: rest => some (.comma, rest)
  | ':' :: rest => some (.colon, rest)
  | '"' :: rest => (readText? rest).map fun (text, remaining) => (.text text, remaining)
  | 'n' :: 'u' :: 'l' :: 'l' :: rest => some (.leaf .null, rest)
  | 't' :: 'r' :: 'u' :: 'e' :: rest => some (.leaf (.bool true), rest)
  | 'f' :: 'a' :: 'l' :: 's' :: 'e' :: rest => some (.leaf (.bool false), rest)
  | chars => do
      let (numeral, rest) ← Numeral.read? chars
      let number ← numeral.toDocument?
      return (.leaf number, rest)

/-- All marks of a text. Each step takes at least one character. -/
def readTokens? : Nat → List Char → Option (List Token)
  | 0, _ => none
  | steps + 1, chars =>
      match chars.dropWhile isSpace with
      | [] => some []
      | start => do
          let (token, rest) ← readToken? start
          let tokens ← readTokens? steps rest
          return token :: tokens

mutual

/-- The document that the marks start with, and the marks behind it. -/
def readDocument? : Nat → List Token → Option (Document × List Token)
  | 0, _ => none
  | steps + 1, tokens =>
      match tokens with
      | .leaf value :: rest => some (value, rest)
      | .text value :: rest => some (string value, rest)
      | .openArray :: .closeArray :: rest => some (array [], rest)
      | .openArray :: rest => do
          let (items, remaining) ← readItems? steps rest
          return (array items, remaining)
      | .openObject :: .closeObject :: rest => some (object [], rest)
      | .openObject :: rest => do
          let (members, remaining) ← readMembers? steps rest
          return (ofMembers members, remaining)
      | _ => none

/-- At least one item, up to the end of the array. -/
def readItems? : Nat → List Token → Option (List Document × List Token)
  | 0, _ => none
  | steps + 1, tokens => do
      let (item, rest) ← readDocument? steps tokens
      match rest with
      | .closeArray :: remaining => return ([item], remaining)
      | .comma :: following => do
          let (items, remaining) ← readItems? steps following
          return (item :: items, remaining)
      | _ => none

/-- At least one member, up to the end of the object. -/
def readMembers? : Nat → List Token → Option (List (String × Document) × List Token)
  | 0, _ => none
  | steps + 1, tokens =>
      match tokens with
      | .text name :: .colon :: following => do
          let (member, rest) ← readDocument? steps following
          match rest with
          | .closeObject :: remaining => return ([(name, member)], remaining)
          | .comma :: others => do
              let (members, remaining) ← readMembers? steps others
              return ((name, member) :: members, remaining)
          | _ => none
      | _ => none

end

/-- The greatest number of open arrays and objects, starting from those that are open already. -/
def nesting (depth : Nat) : List Token → Nat
  | [] => depth
  | .openArray :: rest => nesting (depth + 1) rest
  | .openObject :: rest => nesting (depth + 1) rest
  | .closeArray :: rest => max depth (nesting (depth - 1) rest)
  | .closeObject :: rest => max depth (nesting (depth - 1) rest)
  | _ :: rest => nesting depth rest

/-- Arrays and objects nest at most this deep. -/
def nestingLimit : Nat := 127

/-- The document that a text writes. Of members with one name the last counts. -/
def read? (source : String) : Option Document := do
  let tokens ← readTokens? (source.length + 1) source.toList
  guard (nesting 0 tokens ≤ nestingLimit)
  match readDocument? (tokens.length + 1) tokens with
  | some (document, []) => some document
  | _ => none

end Statute.Document
