import LinkedData.Text.Hex
import LinkedData.Text.Visible

/-!
# Quoted text

A text in double quotes, in which every character shows: quotes, backslashes and the common
control characters are escaped by a letter, other characters that do not show by their code
point in hexadecimal digits.
-/

namespace LinkedData.Text

/-- The code point of a character in hexadecimal digits. -/
def codeText (c : Char) : String :=
  "\\u\x7b" ++ String.ofList (Nat.toDigits 16 c.toNat) ++ "\x7d"

/-- How a character is written between quotes. -/
def quotedChar (c : Char) : String :=
  if c = '"' then "\\\""
  else if c = '\\' then "\\\\"
  else if c = '\n' then "\\n"
  else if c = '\r' then "\\r"
  else if c = '\t' then "\\t"
  else if c.toNat = 0 then "\\0"
  else if isVisible c then String.singleton c
  else codeText c

/-- A text in quotes. -/
def quoted (text : String) : String :=
  "\"" ++ String.join (text.toList.map quotedChar) ++ "\""

end LinkedData.Text
