import LinkedData.Json.Basic
import LinkedData.Binary64.Shortest
import LinkedData.Text.Hex

/-!
# The text of JSON documents

Two layouts: compact, without any space, and indented by two spaces. Only quotes,
backslashes and control characters below `U+0020` are escaped.
-/

namespace LinkedData.Json

/-- Numbers are positional from `0.00001` up to below `10^16`; an exponent always has its
sign. -/
def floatFormat : Binary64.FloatFormat :=
  { tieUp := false, leastPositional := -5, positionalBelow := 16, plusSign := true }

/-- The text of one character inside a quoted text. -/
def escapeChar (c : Char) : List Char :=
  if c = '"' then ['\\', '"']
  else if c = '\\' then ['\\', '\\']
  else if c.toNat = 8 then ['\\', 'b']
  else if c.toNat = 12 then ['\\', 'f']
  else if c = '\n' then ['\\', 'n']
  else if c = '\r' then ['\\', 'r']
  else if c = '\t' then ['\\', 't']
  else if c.toNat < 32 then
    ['\\', 'u', '0', '0', Text.lastHexDigit (c.toNat / 16), Text.lastHexDigit c.toNat]
  else [c]

/-- A quoted text. -/
def quote (s : String) : String :=
  "\"" ++ String.ofList (s.toList.flatMap escapeChar) ++ "\""

/-- The text of a number. -/
def Number.text : Number → String
  | .natural n => toString n.toNat
  | .negative n => toString n.toInt
  | .float x => if x.isFinite then floatFormat.write x else "null"

mutual

/-- The compact text of a document. -/
def compact : Json → String
  | .null => "null"
  | .boolean b => if b then "true" else "false"
  | .number n => n.text
  | .string s => quote s
  | .array items => "[" ++ ",".intercalate (compactItems items) ++ "]"
  | .object members => "\x7b" ++ ",".intercalate (compactMembers members) ++ "\x7d"

/-- The compact texts of the elements. -/
def compactItems : List Json → List String
  | [] => []
  | item :: rest => item.compact :: compactItems rest

/-- The compact texts of the members. -/
def compactMembers : List (String × Json) → List String
  | [] => []
  | (key, value) :: rest => (quote key ++ ":" ++ value.compact) :: compactMembers rest

end

/-- A new line, indented by two spaces a level. -/
def newLine (level : Nat) : String :=
  "\n" ++ String.ofList (List.replicate (2 * level) ' ')

mutual

/-- The indented text of a document that starts at the given level. -/
def indented (level : Nat) : Json → String
  | .array [] => "[]"
  | .array items =>
    "[" ++ newLine (level + 1)
      ++ ("," ++ newLine (level + 1)).intercalate (indentedItems (level + 1) items)
      ++ newLine level ++ "]"
  | .object [] => "\x7b\x7d"
  | .object members =>
    "\x7b" ++ newLine (level + 1)
      ++ ("," ++ newLine (level + 1)).intercalate (indentedMembers (level + 1) members)
      ++ newLine level ++ "\x7d"
  | .null => "null"
  | .boolean b => if b then "true" else "false"
  | .number n => n.text
  | .string s => quote s

/-- The indented texts of the elements. -/
def indentedItems (level : Nat) : List Json → List String
  | [] => []
  | item :: rest => item.indented level :: indentedItems level rest

/-- The indented texts of the members. -/
def indentedMembers (level : Nat) : List (String × Json) → List String
  | [] => []
  | (key, value) :: rest =>
    (quote key ++ ": " ++ value.indented level) :: indentedMembers level rest

end

/-- The indented text of a document. -/
def pretty (document : Json) : String :=
  document.indented 0

end LinkedData.Json
