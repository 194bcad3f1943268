/-
This file reads and writes the quoted texts inside documents.
-/

import Statute.Document.Basic

namespace Statute.Document

/-- A written character is plain or given by a code unit of sixteen bits. -/
inductive Piece
  | plain (char : Char)
  | unit (value : Nat)

/-- The value of a hexadecimal digit. -/
def hexDigit? (char : Char) : Option Nat :=
  if '0' ≤ char ∧ char ≤ '9' then some (char.toNat - '0'.toNat)
  else if 'a' ≤ char ∧ char ≤ 'f' then some (char.toNat - 'a'.toNat + 10)
  else if 'A' ≤ char ∧ char ≤ 'F' then some (char.toNat - 'A'.toNat + 10)
  else none

/-- The value of a row of hexadecimal digits. -/
def hexValue? (chars : List Char) : Option Nat :=
  chars.foldlM (fun value char => (hexDigit? char).map fun digit => value * 16 + digit) 0

/-- The character that a backslash and a mark stand for. -/
def shortEscape? : Char → Option Char
  | '"' => some '"'
  | '\\' => some '\\'
  | '/' => some '/'
  | 'b' => some '\x08'
  | 'f' => some '\x0c'
  | 'n' => some '\n'
  | 'r' => some '\r'
  | 't' => some '\t'
  | _ => none

/-- The pieces up to the closing quote, and the characters after it. Controls must be escaped. -/
def readPieces? : List Char → Option (List Piece × List Char)
  | [] => none
  | '"' :: rest => some ([], rest)
  | '\\' :: 'u' :: first :: second :: third :: fourth :: rest => do
      let value ← hexValue? [first, second, third, fourth]
      let (pieces, remaining) ← readPieces? rest
      return (.unit value :: pieces, remaining)
  | '\\' :: mark :: rest => do
      let char ← shortEscape? mark
      let (pieces, remaining) ← readPieces? rest
      return (.plain char :: pieces, remaining)
  | char :: rest => do
      guard (0x20 ≤ char.toNat)
      let (pieces, remaining) ← readPieces? rest
      return (.plain char :: pieces, remaining)

def isHighSurrogate (value : Nat) : Bool :=
  0xd800 ≤ value && value ≤ 0xdbff

def isLowSurrogate (value : Nat) : Bool :=
  0xdc00 ≤ value && value ≤ 0xdfff

/-- A high and a low surrogate make one character, and neither stands alone. -/
def joinPieces? : List Piece → Option (List Char)
  | [] => some []
  | .plain char :: rest => (joinPieces? rest).map (char :: ·)
  | .unit high :: .unit low :: rest =>
      if isHighSurrogate high && isLowSurrogate low then
        (joinPieces? rest).map (Char.ofNat (0x10000 + (high - 0xd800) * 0x400 + (low - 0xdc00)) :: ·)
      else if isHighSurrogate high || isLowSurrogate high then none
      else (joinPieces? (.unit low :: rest)).map (Char.ofNat high :: ·)
  | .unit value :: rest =>
      if isHighSurrogate value || isLowSurrogate value then none
      else (joinPieces? rest).map (Char.ofNat value :: ·)

/-- The text after an opening quote, and the characters behind its closing quote. -/
def readText? (chars : List Char) : Option (String × List Char) := do
  let (pieces, rest) ← readPieces? chars
  let text ← joinPieces? pieces
  return (String.ofList text, rest)

/-- Four hexadecimal digits. -/
def hexFour (value : Nat) : String :=
  let digits := Nat.toDigits 16 value
  String.ofList (List.replicate (4 - digits.length) '0' ++ digits)

/-- One character of a written text. -/
def writtenChar (char : Char) : String :=
  if char = '"' then "\\\""
  else if char = '\\' then "\\\\"
  else if char = '\n' then "\\n"
  else if char = '\r' then "\\r"
  else if char = '\t' then "\\t"
  else if char.toNat < 0x20 then "\\u" ++ hexFour char.toNat
  else char.toString

/-- A text between quotes. -/
def writeText (text : String) : String :=
  "\"" ++ text.toList.foldl (fun written char => written ++ writtenChar char) "" ++ "\""

end Statute.Document
