import LinkedData.Host.Regex.Escape

/-!
# Bracketed classes of a regular expression

A class in brackets holds characters, ranges, named classes and further brackets, and
joins such unions by `&&`, `--` and `~~`. In a mode without Unicode a class is a set of
bytes and must come out as a set of ASCII characters; it is kept as the bits of a number.
-/

namespace LinkedData.Regex

/-- What is known about a class or a part of one. -/
structure ClassPart where
  /-- how many levels it nests -/
  depth : Nat
  /-- about how many bytes its automaton takes -/
  size : Nat
  /-- without Unicode: the bytes it holds, as the bits of a number -/
  bytes : Nat

/-- Does it hold ASCII characters only? -/
def ClassPart.isAscii (part : ClassPart) : Bool :=
  part.bytes < 1 <<< 128

/-- How the unions of a class are joined. -/
inductive ClassOp where
  | intersection | difference | symmetricDifference

/-- All bytes. -/
def allBytes : Nat := (1 <<< 256) - 1

/-- The bytes of a range of characters. -/
def byteRange (low high : Nat) : Nat :=
  (1 <<< (high + 1)) - (1 <<< low)

/-- The bytes of several ranges. -/
def byteRanges (ranges : List (Char × Char)) : Nat :=
  ranges.foldl (fun bytes r => bytes ||| byteRange r.1.toNat r.2.toNat) 0

/-- The ASCII digits, blanks or word characters, by their letter. -/
def perlBytes (letter : Char) : Nat :=
  if letter = 'd' then byteRanges [('0', '9')]
  else if letter = 's' then byteRanges [('\t', '\r'), (' ', ' ')]
  else byteRanges [('0', '9'), ('A', 'Z'), ('a', 'z'), ('_', '_')]

/-- The classes that may be named between `[:` and `:]`. -/
def asciiClass? (name : String) : Option Nat :=
  match name with
  | "alnum" => some (byteRanges [('0', '9'), ('A', 'Z'), ('a', 'z')])
  | "alpha" => some (byteRanges [('A', 'Z'), ('a', 'z')])
  | "ascii" => some (byteRange 0 127)
  | "blank" => some (byteRanges [('\t', '\t'), (' ', ' ')])
  | "cntrl" => some (byteRange 0 31 ||| byteRange 127 127)
  | "digit" => some (byteRanges [('0', '9')])
  | "graph" => some (byteRanges [('!', '~')])
  | "lower" => some (byteRanges [('a', 'z')])
  | "print" => some (byteRanges [(' ', '~')])
  | "punct" => some (byteRanges [('!', '/'), (':', '@'), ('[', '\x60'), ('\x7b', '~')])
  | "space" => some (byteRanges [('\t', '\r'), (' ', ' ')])
  | "upper" => some (byteRanges [('A', 'Z')])
  | "word" => some (byteRanges [('0', '9'), ('A', 'Z'), ('a', 'z'), ('_', '_')])
  | "xdigit" => some (byteRanges [('0', '9'), ('A', 'F'), ('a', 'f')])
  | _ => none

/-- About how many bytes the automaton of a lettered class takes. -/
def perlSize (mode : Mode) (letter : Char) : Nat :=
  if !mode.unicode then 100
  else if letter = 'd' || letter = 'D' then 8000
  else if letter = 's' || letter = 'S' then 1200
  else 60000

/-- About how many bytes the automaton of a class by name takes. -/
def propertySize : Nat := 20000

/-- A lettered class. Without Unicode its complement is not a set of ASCII characters. -/
def perlPart? (mode : Mode) (letter : Char) : Option ClassPart :=
  if !mode.unicode && letter.isUpper then none
  else some ⟨0, perlSize mode letter, perlBytes letter.toLower⟩

/-- May the character stand in a class? Without Unicode only ASCII characters may. -/
def literalInClass (mode : Mode) (c : Char) : Bool :=
  mode.unicode || c.toNat < 128

/-- An element of a class that is not a range. -/
def Atom.classPart? (mode : Mode) : Atom → Option ClassPart
  | .literal c _ =>
    if literalInClass mode c then some ⟨0, 64, 1 <<< c.toNat⟩ else none
  | .perl letter => perlPart? mode letter
  | .property => some ⟨0, propertySize, 0⟩
  | .place => none

/-- A range between two characters. -/
def rangePart? (mode : Mode) : Atom → Atom → Option ClassPart
  | .literal low _, .literal high _ =>
    if low ≤ high && literalInClass mode low && literalInClass mode high then
      some ⟨0, 64, if mode.unicode then 0 else byteRange low.toNat high.toNat⟩
    else none
  | _, _ => none

/-- A character or an escape in a class. -/
def readClassAtom? (mode : Mode) : List Char → Option (Atom × List Char)
  | '\\' :: rest => readEscape? mode rest
  | c :: rest => some (.literal c false, rest)
  | [] => none

/-- An element of a class: a single one or a range. A hyphen before a closing bracket or
before another hyphen is no range. -/
def readClassItem? (mode : Mode) (cs : List Char) : Option (ClassPart × List Char) := do
  let (low, rest) ← readClassAtom? mode cs
  match skip mode rest with
  | [] => none
  | '-' :: tail =>
    let next := peek? mode tail
    if next == some ']' || next == some '-' then
      some (← low.classPart? mode, '-' :: tail)
    else
      match skip mode tail with
      | [] => none
      | tail =>
        let (high, rest) ← readClassAtom? mode tail
        some (← rangePart? mode low high, rest)
  | rest => some (← low.classPart? mode, rest)

/-- A class named between `[:` and `:]`, after its opening bracket. -/
def readAsciiClass? (mode : Mode) (cs : List Char) : Option (ClassPart × List Char) := do
  let rest ← Text.dropFront? [':'] cs
  let (negated, rest) :=
    match rest with
    | '^' :: rest => (true, rest)
    | rest => (false, rest)
  let name := rest.takeWhile (· != ':')
  let rest ← Text.dropFront? [':', ']'] (rest.dropWhile (· != ':'))
  let bytes ← asciiClass? (String.ofList name)
  let bytes := if negated then allBytes ^^^ bytes else bytes
  some (⟨0, 100, if mode.unicode then 0 else bytes⟩, rest)

/-- The union of the elements of a class. -/
def unionPart (items : List ClassPart) : ClassPart :=
  match items with
  | [item] => item
  | [] => ⟨0, 0, 0⟩
  | items =>
    { depth := 1 + items.foldl (fun d i => max d i.depth) 0
      size := items.foldl (fun s i => s + i.size) 0
      bytes := items.foldl (fun b i => b ||| i.bytes) 0 }

/-- Two unions, joined. -/
def ClassOp.join (op : ClassOp) (x y : ClassPart) : ClassPart :=
  { depth := 1 + max x.depth y.depth
    size := x.size + y.size
    bytes :=
      match op with
      | .intersection => x.bytes &&& y.bytes
      | .difference => x.bytes &&& (allBytes ^^^ y.bytes)
      | .symmetricDifference => x.bytes ^^^ y.bytes }

/-- What is still to be joined with the union under way. -/
abbrev Pending := Option (ClassPart × ClassOp)

/-- Join the union under way with what came before it. -/
def Pending.close (pending : Pending) (items : List ClassPart) : ClassPart :=
  match pending with
  | some (before, op) => op.join before (unionPart items)
  | none => unionPart items

/-- A whole class in its brackets. Without Unicode it must be a set of ASCII characters. -/
def bracketPart? (mode : Mode) (negated : Bool) (inner : ClassPart) : Option ClassPart :=
  let bytes := if negated then allBytes ^^^ inner.bytes else inner.bytes
  let part : ClassPart := ⟨inner.depth + 1, inner.size + 64, bytes⟩
  if mode.unicode || part.isAscii then some part else none

/-- The hyphens that a class may begin with, as many as `fuel` says. -/
def readHyphens? (mode : Mode) : Nat → Nat → List Char → Option (Nat × List Char)
  | 0, count, cs => some (count, cs)
  | fuel + 1, count, cs =>
    match cs with
    | '-' :: rest =>
      match skip mode rest with
      | [] => none
      | rest => readHyphens? mode fuel (count + 1) rest
    | _ => some (count, cs)

/-- A literal that begins a class. -/
def leadingPart (c : Char) : ClassPart :=
  ⟨0, 64, 1 <<< c.toNat⟩

/-- The beginning of a class: is it negated, the hyphens or the closing bracket that stand
for themselves, and what follows. -/
def readClassStart? (mode : Mode) (cs : List Char) :
    Option (Bool × List ClassPart × List Char) := do
  let (negated, rest) ←
    match skip mode cs with
    | [] => none
    | '^' :: rest =>
      match skip mode rest with
      | [] => none
      | rest => some (true, rest)
    | rest => some (false, rest)
  let (hyphens, rest) ← readHyphens? mode (rest.length + 1) 0 rest
  match hyphens, rest with
  | 0, ']' :: rest =>
    match skip mode rest with
    | [] => none
    | rest => some (negated, [leadingPart ']'], rest)
  | count, rest => some (negated, List.replicate count (leadingPart '-'), rest)

mutual

/-- A class, after its opening bracket; at most `fuel` steps. -/
def readClass? (mode : Mode) : Nat → List Char → Option (ClassPart × List Char)
  | 0, _ => none
  | fuel + 1, cs => do
    let (negated, items, rest) ← readClassStart? mode cs
    let (inner, rest) ← readClassItems? mode fuel none items rest
    some (← bracketPart? mode negated inner, rest)

/-- The elements of a class up to its closing bracket; at most `fuel` steps. -/
def readClassItems? (mode : Mode) :
    Nat → Pending → List ClassPart → List Char → Option (ClassPart × List Char)
  | 0, _, _, _ => none
  | fuel + 1, pending, items, cs =>
    match skip mode cs with
    | [] => none
    | ']' :: rest => some (pending.close items, rest)
    | '[' :: rest =>
      match readAsciiClass? mode rest with
      | some (part, rest) =>
        if mode.unicode || part.isAscii then
          readClassItems? mode fuel pending (items ++ [part]) rest
        else none
      | none => do
        let (part, rest) ← readClass? mode fuel rest
        readClassItems? mode fuel pending (items ++ [part]) rest
    | '&' :: '&' :: rest =>
      readClassItems? mode fuel (some (pending.close items, .intersection)) [] rest
    | '-' :: '-' :: rest =>
      readClassItems? mode fuel (some (pending.close items, .difference)) [] rest
    | '~' :: '~' :: rest =>
      readClassItems? mode fuel (some (pending.close items, .symmetricDifference)) [] rest
    | rest => do
      let (part, rest) ← readClassItem? mode rest
      readClassItems? mode fuel pending (items ++ [part]) rest

end

end LinkedData.Regex
