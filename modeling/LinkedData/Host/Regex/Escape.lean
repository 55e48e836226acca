import LinkedData.Host.Regex.Property
import LinkedData.Text.Blank
import LinkedData.Text.Hex

/-!
# Single characters of a regular expression

The smallest parts: what follows a backslash, and the blanks and comments that a verbose
expression may hold between its parts.
-/

namespace LinkedData.Regex

/-- The switches that change how the rest of a group is read. -/
structure Mode where
  /-- blanks and comments are ignored -/
  verbose : Bool
  /-- classes range over all characters, and not over ASCII -/
  unicode : Bool
  deriving DecidableEq

/-- The characters after the end of the line. -/
def dropLine (cs : List Char) : List Char :=
  (cs.dropWhile (· != '\n')).drop 1

/-- Blanks and comments at the front, as often as `fuel` says. -/
def skipVerbose : Nat → List Char → List Char
  | 0, cs => cs
  | fuel + 1, cs =>
    match Text.trimStart cs with
    | '#' :: rest => skipVerbose fuel (dropLine rest)
    | rest => rest

/-- What is ignored between two parts. -/
def skip (mode : Mode) (cs : List Char) : List Char :=
  if mode.verbose then skipVerbose (cs.length + 1) cs else cs

/-- The next character that counts. After the sign of a comment any character that is not
blank counts. -/
def peek? (mode : Mode) (cs : List Char) : Option Char :=
  if mode.verbose then
    let visible :=
      match Text.trimStart cs with
      | '#' :: rest => Text.trimStart rest
      | rest => rest
    visible.head?.or cs.head?
  else cs.head?

/-- A single character of an expression, a class of characters, or a place. -/
inductive Atom where
  /-- the character itself; `byte` when it is given by two hexadecimal digits -/
  | literal (c : Char) (byte : Bool)
  /-- digits, blanks or word characters, by their letter -/
  | perl (letter : Char)
  /-- a class by name -/
  | property
  /-- a place between characters -/
  | place

/-- The characters with a meaning of their own. -/
def isMeta (c : Char) : Bool :=
  "\\.+*?()|[]\x7b\x7d^$#&-~".toList.contains c

/-- May the character follow a backslash to stand for itself? -/
def isEscapable (c : Char) : Bool :=
  isMeta c || (c.toNat < 128 && !c.isAlphanum && c != '<' && c != '>')

/-- The code point as a character. -/
def charOfCode? (n : Nat) : Option Char :=
  if h : n.isValidChar then some (Char.ofNatAux n h) else none

/-- So many hexadecimal digits. -/
def readHexDigits? (mode : Mode) : Nat → Nat → List Char → Option (Nat × List Char)
  | 0, value, cs => some (value, cs)
  | count + 1, value, c :: rest =>
    match Text.hexValue? c with
    | some digit => readHexDigits? mode count (16 * value + digit) (skip mode rest)
    | none => none
  | _, _, [] => none

/-- The characters up to a closing brace, without what is ignored, as many as `fuel` says. -/
def readBraced? (mode : Mode) : Nat → List Char → Option (List Char × List Char)
  | 0, _ => none
  | fuel + 1, cs =>
    match skip mode cs with
    | [] => none
    | c :: rest =>
      if c = '\x7d' then some ([], rest)
      else (readBraced? mode fuel rest).map fun (inner, rest) => (c :: inner, rest)

/-- A character given by its code: two, four or eight digits, or any number in braces. -/
def readCode? (mode : Mode) (letter : Char) (cs : List Char) : Option (Atom × List Char) :=
  match skip mode cs with
  | '\x7b' :: rest => do
    let (inner, rest) ← readBraced? mode (rest.length + 1) rest
    if inner.isEmpty then none
    else
      let digits ← inner.mapM Text.hexValue?
      let c ← charOfCode? (digits.foldl (fun n d => 16 * n + d) 0)
      some (.literal c false, skip mode rest)
  | rest => do
    let count := if letter = 'x' then 2 else if letter = 'u' then 4 else 8
    let (code, rest) ← readHexDigits? mode count 0 rest
    let c ← charOfCode? code
    some (.literal c (letter = 'x'), rest)

/-- A class by name; it takes the whole range of characters. -/
def readProperty? (mode : Mode) (cs : List Char) : Option (Atom × List Char) :=
  if !mode.unicode then none
  else
    match skip mode cs with
    | [] => none
    | '\x7b' :: rest => do
      let (inner, rest) ← readBraced? mode (rest.length + 1) rest
      if isClassQuery inner then some (.property, rest) else none
    | c :: rest =>
      if c != '\\' && isClassName (String.singleton c) then some (.property, skip mode rest)
      else none

/-- The characters of the name of a special boundary, and what follows them. -/
def readBoundaryName (mode : Mode) : Nat → List Char → List Char × List Char
  | 0, cs => ([], cs)
  | fuel + 1, cs =>
    match cs with
    | [] => ([], [])
    | c :: rest =>
      if c.isAlpha || c == '-' then
        let (name, rest) := readBoundaryName mode fuel (skip mode rest)
        (c :: name, rest)
      else ([], c :: rest)

/-- A word boundary; with a name in braces it is one of four special ones. Braces that hold
something else are left for a repetition. -/
def readBoundary? (mode : Mode) (cs : List Char) : Option (Atom × List Char) :=
  match cs with
  | '\x7b' :: inner =>
    match skip mode inner with
    | [] => none
    | c :: rest =>
      if c.isAlpha || c == '-' then
        match readBoundaryName mode (rest.length + 1) (c :: rest) with
        | (name, '\x7d' :: rest) =>
          if ["start", "end", "start-half", "end-half"].contains (String.ofList name) then
            some (.place, rest)
          else none
        | _ => none
      else some (.place, cs)
  | _ => some (.place, cs)

/-- The control characters that have a letter. -/
def controlCode? (letter : Char) : Option Nat :=
  match letter with
  | 'a' => some 7
  | 't' => some 9
  | 'n' => some 10
  | 'v' => some 11
  | 'f' => some 12
  | 'r' => some 13
  | _ => none

/-- What follows a backslash. -/
def readEscape? (mode : Mode) : List Char → Option (Atom × List Char)
  | [] => none
  | c :: rest =>
    if c == 'x' || c == 'u' || c == 'U' then readCode? mode c rest
    else if c == 'p' || c == 'P' then readProperty? mode rest
    else if "dDsSwW".toList.contains c then some (.perl c, rest)
    else if isEscapable c then some (.literal c false, rest)
    else if c == 'b' then readBoundary? mode rest
    else if "AzB<>".toList.contains c then some (.place, rest)
    else (controlCode? c).map fun code => (.literal (Char.ofNat code) false, rest)

end LinkedData.Regex
