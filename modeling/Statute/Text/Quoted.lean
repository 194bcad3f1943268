/-
This file writes texts in quotes.
-/

import Statute.Text.Hidden

namespace Statute.Text

/-- The hexadecimal digits of a code point, without leading zeros. -/
def codePoint (char : Char) : String :=
  String.ofList (Nat.toDigits 16 char.toNat)

/-- One character inside quotes. A quote, a backslash and the usual controls have short escapes,
and a hidden character is written by its code point. -/
def quotedChar (char : Char) : String :=
  if char = '"' then "\\\""
  else if char = '\\' then "\\\\"
  else if char = '\n' then "\\n"
  else if char = '\t' then "\\t"
  else if char = '\r' then "\\r"
  else if char.toNat = 0 then "\\0"
  else if isHidden char then "\\u\x7b" ++ codePoint char ++ "\x7d"
  else char.toString

/-- A text in quotes, with every character visible. -/
def quoted (text : String) : String :=
  "\"" ++ text.toList.foldl (fun written char => written ++ quotedChar char) "" ++ "\""

end Statute.Text
