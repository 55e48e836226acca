import LinkedData.Json.Basic
import LinkedData.Binary64.Decimal
import LinkedData.Text.Hex

/-!
# Reading JSON documents

The grammar is the strict one: no comments, no trailing commas, no leading zeros, no raw
control characters in texts, no unpaired surrogates. Arrays and objects nest at most
`maxDepth` levels deep. A repeated key keeps its first position and its last value.

A number is whole when it has neither a point nor an exponent and its digits fit 64 bits;
`-0` is the negative zero. All other numbers are read in two steps: as many digits as fit
64 bits, then a power of ten. A number that overflows is refused.

Each reader takes the characters and gives back what it read and what is left.
-/

namespace LinkedData.Json

/-- How deep arrays and objects may nest. -/
def maxDepth : Nat := 127

/-- The white space between tokens. -/
def isSpace (c : Char) : Bool :=
  c == ' ' || c == '\n' || c == '\t' || c == '\r'

/-- Drop the white space at the front. -/
def skipSpace (cs : List Char) : List Char :=
  cs.dropWhile isSpace

/-- Four hexadecimal digits. -/
def readHex4? : List Char → Option (Nat × List Char)
  | a :: b :: c :: d :: rest => do
    let a ← Text.hexValue? a
    let b ← Text.hexValue? b
    let c ← Text.hexValue? c
    let d ← Text.hexValue? d
    some (((a * 16 + b) * 16 + c) * 16 + d, rest)
  | _ => none

/-- The character after `\u`, which may take a second escape to complete a pair of
surrogates. -/
def readUnicode? (cs : List Char) : Option (Char × List Char) := do
  let (unit, rest) ← readHex4? cs
  if 0xD800 ≤ unit && unit ≤ 0xDBFF then
    match rest with
    | '\\' :: 'u' :: rest =>
      let (low, rest) ← readHex4? rest
      if 0xDC00 ≤ low && low ≤ 0xDFFF then
        some (Char.ofNat (0x10000 + (unit - 0xD800) * 0x400 + (low - 0xDC00)), rest)
      else none
    | _ => none
  else if 0xDC00 ≤ unit && unit ≤ 0xDFFF then none
  else some (Char.ofNat unit, rest)

/-- The character after a backslash. -/
def readEscape? : List Char → Option (Char × List Char)
  | '"' :: rest => some ('"', rest)
  | '\\' :: rest => some ('\\', rest)
  | '/' :: rest => some ('/', rest)
  | 'b' :: rest => some (Char.ofNat 8, rest)
  | 'f' :: rest => some (Char.ofNat 12, rest)
  | 'n' :: rest => some ('\n', rest)
  | 'r' :: rest => some ('\r', rest)
  | 't' :: rest => some ('\t', rest)
  | 'u' :: rest => readUnicode? rest
  | _ => none

/-- The characters up to the closing quote. Each step takes at least one character, so as
many steps as characters are enough. -/
def readChars? : Nat → List Char → Option (List Char × List Char)
  | 0, _ => none
  | _, [] => none
  | fuel + 1, c :: rest =>
    if c = '"' then some ([], rest)
    else if c = '\\' then do
      let (escaped, rest) ← readEscape? rest
      let (cs, rest) ← readChars? fuel rest
      some (escaped :: cs, rest)
    else if c.toNat < 32 then none
    else do
      let (cs, rest) ← readChars? fuel rest
      some (c :: cs, rest)

/-- A quoted text, after its opening quote. -/
def readString? (cs : List Char) : Option (String × List Char) := do
  let (text, rest) ← readChars? (cs.length + 1) cs
  some (String.ofList text, rest)

/-- Digits taken into a significand that must fit 64 bits: the significand, and the digits
that no longer fit. -/
def takeSignificand (significand : Nat) : List Char → Nat × List Char
  | [] => (significand, [])
  | c :: rest =>
    let more := 10 * significand + Binary64.digitValue c
    if more < 1 <<< 64 then takeSignificand more rest else (significand, c :: rest)

/-- A number with a point, an exponent or too many digits. Whole digits that do not fit
count as powers of ten; digits after the point that do not fit are ignored. -/
def floatNumber? (negative : Bool) (whole fraction : List Char) (exponent : Int) :
    Option Number := do
  let (significand, unread) := takeSignificand 0 whole
  let (significand, ignored) := takeSignificand significand fraction
  let taken : Int := (fraction.length : Int) - ignored.length
  let x ← Binary64.ofDecimalTwoStep significand (exponent + unread.length - taken)
  some (.float (if negative then x.neg else x))

/-- A number without point and exponent. -/
def wholeNumber? (negative : Bool) (whole : List Char) : Option Number :=
  let n := Binary64.ofDigits whole
  if 1 <<< 64 ≤ n then floatNumber? negative whole [] 0
  else if !negative then some (.natural (UInt64.ofNat n))
  else if n = 0 || 1 <<< 63 < n then some (.float (Binary64.ofNat n).neg)
  else some (.negative (Int64.ofInt (-(n : Int))))

/-- The exponent of a number, if it has one, after its digits. -/
def readExponent? : List Char → Option (Option Int × List Char)
  | [] => some (none, [])
  | c :: rest =>
    if c == 'e' || c == 'E' then
      let (negative, rest) := Binary64.splitSign rest
      let digits := rest.takeWhile Char.isDigit
      if digits.isEmpty then none
      else
        let n : Int := Binary64.ofDigits digits
        some (some (if negative then -n else n), rest.dropWhile Char.isDigit)
    else some (none, c :: rest)

/-- A number, after its sign. -/
def readNumber? (negative : Bool) (cs : List Char) : Option (Number × List Char) := do
  let whole := cs.takeWhile Char.isDigit
  let rest := cs.dropWhile Char.isDigit
  if whole.isEmpty || (whole.head? == some '0' && 1 < whole.length) then none
  else
    match rest with
    | '.' :: tail =>
      let fraction := tail.takeWhile Char.isDigit
      if fraction.isEmpty then none
      else
        let (exponent, rest) ← readExponent? (tail.dropWhile Char.isDigit)
        let number ← floatNumber? negative whole fraction (exponent.getD 0)
        some (number, rest)
    | _ =>
      match ← readExponent? rest with
      | (some exponent, rest) =>
        let number ← floatNumber? negative whole [] exponent
        some (number, rest)
      | (none, rest) =>
        let number ← wholeNumber? negative whole
        some (number, rest)

/-- A fixed word at the front. -/
def readWord? (word : List Char) (value : Json) (cs : List Char) : Option (Json × List Char) :=
  if word.isPrefixOf cs then some (value, cs.drop word.length) else none

theorem eq_of_readWord? {word cs r : List Char} {value j : Json}
    (h : readWord? word value cs = some (j, r)) : j = value := by
  rw [readWord?] at h
  split at h
  · exact (Prod.mk.inj (Option.some.inj h)).1.symm
  · cases h

mutual

/-- A document at the front, with leading white space; arrays and objects may be opened
`depth` levels deep. -/
def readValue? : Nat → Nat → List Char → Option (Json × List Char)
  | 0, _, _ => none
  | fuel + 1, depth, cs =>
    match skipSpace cs with
    | '"' :: rest => (readString? rest).map fun (s, rest) => (.string s, rest)
    | '[' :: rest =>
      match depth with
      | 0 => none
      | depth + 1 =>
        match skipSpace rest with
        | ']' :: rest => some (.array [], rest)
        | _ => (readItems? fuel depth rest).map fun (items, rest) => (.array items, rest)
    | '\x7b' :: rest =>
      match depth with
      | 0 => none
      | depth + 1 =>
        match skipSpace rest with
        | '\x7d' :: rest => some (.object [], rest)
        | _ =>
          (readMembers? fuel depth [] rest).map fun (members, rest) => (.object members, rest)
    | '-' :: rest => (readNumber? true rest).map fun (n, rest) => (.number n, rest)
    | 't' :: rest => readWord? ['r', 'u', 'e'] (.boolean true) rest
    | 'f' :: rest => readWord? ['a', 'l', 's', 'e'] (.boolean false) rest
    | 'n' :: rest => readWord? ['u', 'l', 'l'] .null rest
    | rest => (readNumber? false rest).map fun (n, rest) => (.number n, rest)

/-- One or more elements and the closing bracket. -/
def readItems? : Nat → Nat → List Char → Option (List Json × List Char)
  | 0, _, _ => none
  | fuel + 1, depth, cs => do
    let (item, rest) ← readValue? fuel depth cs
    match skipSpace rest with
    | ',' :: rest =>
      let (items, rest) ← readItems? fuel depth rest
      some (item :: items, rest)
    | ']' :: rest => some ([item], rest)
    | _ => none

/-- One or more members, added to those read before, and the closing brace. -/
def readMembers? : Nat → Nat → Fields Json → List Char → Option (Fields Json × List Char)
  | 0, _, _, _ => none
  | fuel + 1, depth, members, cs => do
    match skipSpace cs with
    | '"' :: rest =>
      let (key, rest) ← readString? rest
      match skipSpace rest with
      | ':' :: rest =>
        let (value, rest) ← readValue? fuel depth rest
        let members := members.set key value
        match skipSpace rest with
        | ',' :: rest => readMembers? fuel depth members rest
        | '\x7d' :: rest => some (members, rest)
        | _ => none
      | _ => none
    | _ => none

end

/-- Read a document, which must be the whole text. Every step takes a character or ends,
so twice as many steps as characters are enough. -/
def read? (text : String) : Option Json := do
  let cs := text.toList
  let (document, rest) ← readValue? (2 * cs.length + 2) maxDepth cs
  if (skipSpace rest).isEmpty then some document else none

end LinkedData.Json
