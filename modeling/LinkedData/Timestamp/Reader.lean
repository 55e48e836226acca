import LinkedData.Timestamp.Basic
import LinkedData.Text.Blank

/-!
# Reading timestamps

Two grammars. `read?` is RFC 3339: fixed widths, `T`, `t` or a space between date and time,
an optional fraction of which nine digits count, and an offset, in which the minus sign
`U+2212` may stand for the hyphen. `readUnzoned?` has no offset and is read as universal
time; its numbers may be shorter and may have blanks in front, and its year may have a sign
and then any number of digits.
-/

namespace LinkedData.Timestamp

/-- The natural that the digits denote. -/
def natOfDigits (digits : List Char) : Nat :=
  digits.foldl (fun n c => 10 * n + (c.toNat - '0'.toNat)) 0

/-- At least `least` digits; of a longer run the first `most`. -/
def readDigits? (least most : Nat) (cs : List Char) : Option (Nat × List Char) :=
  let digits := (cs.take most).takeWhile Char.isDigit
  if digits.length < least then none
  else some (natOfDigits digits, cs.drop digits.length)

/-- Exactly two digits. -/
def readTwo? (cs : List Char) : Option (Nat × List Char) :=
  readDigits? 2 2 cs

/-- One known character. -/
def readChar? (expected : Char) : List Char → Option (List Char)
  | c :: rest => if c = expected then some rest else none
  | [] => none

/-- A fraction of a second, in nanoseconds: nothing, or a point and at least one digit.
Digits after the ninth are ignored. -/
def readFraction? : List Char → Option (Nat × List Char)
  | '.' :: rest =>
    let digits := rest.takeWhile Char.isDigit
    if digits.isEmpty then none
    else
      let kept := digits.take 9
      some (natOfDigits kept * Nat.pow 10 (9 - kept.length), rest.dropWhile Char.isDigit)
  | cs => some (0, cs)

/-- The hours and minutes of an offset, after its sign. -/
def readOffsetMinutes? (cs : List Char) : Option (Nat × List Char) := do
  let (hours, rest) ← readTwo? cs
  let rest ← readChar? ':' rest
  let (minutes, rest) ← readTwo? rest
  if 60 ≤ minutes then none else some (hours * 60 + minutes, rest)

/-- An offset, in minutes. -/
def readOffset? : List Char → Option (Int × List Char)
  | c :: rest =>
    if c = 'Z' ∨ c = 'z' then some (0, rest)
    else if c = '+' then
      (readOffsetMinutes? rest).map fun (minutes, rest) => ((minutes : Int), rest)
    else if c = '-' ∨ c = '−' then
      (readOffsetMinutes? rest).map fun (minutes, rest) => (-(minutes : Int), rest)
    else none
  | [] => none

/-- The separator between date and time. -/
def readSeparator? : List Char → Option (List Char)
  | c :: rest => if c = 'T' ∨ c = 't' ∨ c = ' ' then some rest else none
  | [] => none

/-- Read a timestamp with an offset, which must be the whole text. -/
def read? (text : String) : Option Timestamp := do
  let (year, rest) ← readDigits? 4 4 text.toList
  let rest ← readChar? '-' rest
  let (month, rest) ← readTwo? rest
  let rest ← readChar? '-' rest
  let (day, rest) ← readTwo? rest
  let rest ← readSeparator? rest
  let (hour, rest) ← readTwo? rest
  let rest ← readChar? ':' rest
  let (minute, rest) ← readTwo? rest
  let rest ← readChar? ':' rest
  let (second, rest) ← readTwo? rest
  let (nanosecond, rest) ← readFraction? rest
  let (offset, rest) ← readOffset? rest
  if rest.isEmpty then ofParts? year month day hour minute second nanosecond offset else none

/-- A year: a sign and any number of digits, or at most four digits. -/
def readYear? (cs : List Char) : Option (Int × List Char) :=
  match Text.trimStart cs with
  | '-' :: rest => (readDigits? 1 rest.length rest).map fun (n, rest) => (-(n : Int), rest)
  | '+' :: rest => (readDigits? 1 rest.length rest).map fun (n, rest) => ((n : Int), rest)
  | rest => (readDigits? 1 4 rest).map fun (n, rest) => ((n : Int), rest)

/-- One or two digits, after any blanks. -/
def readLoose? (cs : List Char) : Option (Nat × List Char) :=
  readDigits? 1 2 (Text.trimStart cs)

/-- Read a timestamp without an offset, which must be the whole text. -/
def readUnzoned? (text : String) : Option Timestamp := do
  let (year, rest) ← readYear? text.toList
  let rest ← readChar? '-' rest
  let (month, rest) ← readLoose? rest
  let rest ← readChar? '-' rest
  let (day, rest) ← readLoose? rest
  let rest ← readChar? 'T' rest
  let (hour, rest) ← readLoose? rest
  let rest ← readChar? ':' rest
  let (minute, rest) ← readLoose? rest
  let rest ← readChar? ':' rest
  let (second, rest) ← readLoose? rest
  let (nanosecond, rest) ← readFraction? rest
  if rest.isEmpty then ofParts? year month day hour minute second nanosecond 0 else none

end LinkedData.Timestamp
