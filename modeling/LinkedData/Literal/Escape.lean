/-!
# Escapes in quoted literals

Five characters cannot stand in a quoted literal as they are: the backslash, the quote,
the line feed, the carriage return and the tab. Each is written as a backslash and a
letter.
-/

namespace LinkedData.Literal

/-- The text of one character inside quotes. -/
def escapeChar : Char → List Char
  | '\\' => ['\\', '\\']
  | '"' => ['\\', '"']
  | '\n' => ['\\', 'n']
  | '\r' => ['\\', 'r']
  | '\t' => ['\\', 't']
  | c => [c]

/-- The text of characters inside quotes. -/
def escapeChars (cs : List Char) : List Char :=
  cs.flatMap escapeChar

/-- The text of a text inside quotes. -/
def escape (s : String) : String :=
  String.ofList (escapeChars s.toList)

end LinkedData.Literal
