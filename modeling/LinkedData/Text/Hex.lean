/-!
# Hexadecimal digits
-/

namespace LinkedData.Text

/-- The digit of a value, in lower case. -/
def hexDigit (n : Fin 16) : Char :=
  ['0', '1', '2', '3', '4', '5', '6', '7', '8', '9', 'a', 'b', 'c', 'd', 'e', 'f'][n]

/-- The last digit of a number. -/
def lastHexDigit (value : Nat) : Char :=
  hexDigit (Fin.ofNat 16 value)

/-- The value of a digit, in either case. -/
def hexValue? (c : Char) : Option Nat :=
  if c.isDigit then some (c.toNat - '0'.toNat)
  else if 'a' ≤ c && c ≤ 'f' then some (c.toNat - 'a'.toNat + 10)
  else if 'A' ≤ c && c ≤ 'F' then some (c.toNat - 'A'.toNat + 10)
  else none

theorem hexValue?_hexDigit (n : Fin 16) : hexValue? (hexDigit n) = some n.val := by
  revert n; decide

end LinkedData.Text
