import LinkedData.Error
import LinkedData.Host.Regex.Class
import LinkedData.Text.Alphanumeric

/-!
# A check of regular expressions

Filters may ask for texts that match a regular expression. The store does the matching, and
which texts are expressions at all is left to an engine (`RegexCheck`). A program needs one
such check, and this is the one it runs with. The grammar has neither look-around nor
references to groups, counted repetitions must not run backwards, names of groups are
distinct, at most 250 levels may nest, and without Unicode nothing may match part of a
character.

An expression must also not be too large: a counted repetition multiplies the size of what
it repeats. The sizes are estimates in bytes of the automaton that would be built.
Nothing that is proved about compiling depends on them.
-/

namespace LinkedData.Regex

/-- What is known about a part of an expression. -/
structure Part where
  /-- how many levels it nests -/
  depth : Nat
  /-- about how many bytes its automaton takes -/
  size : Nat
  /-- does it match the empty text alone? -/
  isPlace : Bool
  /-- may it be repeated? -/
  repeatable : Bool

/-- About how many bytes one state of an automaton takes. -/
def stateSize : Nat := 32

/-- The largest automaton. -/
def maxSize : Nat := 10 * 1024 * 1024

/-- How many levels may nest. -/
def maxNesting : Nat := 250

/-- The largest count of a repetition. -/
def maxCount : Nat := (1 <<< 32) - 1

/-- Parts one after the other. -/
def sequencePart : List Part → Part
  | [] => ⟨0, stateSize, true, false⟩
  | [part] => part
  | parts =>
    { depth := 1 + parts.foldl (fun d p => max d p.depth) 0
      size := parts.foldl (fun s p => s + p.size) 0
      isPlace := parts.all (·.isPlace)
      repeatable := true }

/-- One of several branches. -/
def branchesPart (branches : List (List Part)) : Part :=
  match branches with
  | [parts] => sequencePart parts
  | branches =>
    let parts := branches.map sequencePart
    { depth := 1 + parts.foldl (fun d p => max d p.depth) 0
      size := parts.foldl (fun s p => s + p.size) (2 * stateSize)
      isPlace := parts.all (·.isPlace)
      repeatable := true }

/-- A part in parentheses. -/
def Part.grouped (part : Part) : Part :=
  { part with depth := part.depth + 1, size := part.size + 2 * stateSize, repeatable := true }

/-- How often a part is repeated. -/
structure Counts where
  /-- the least number of times -/
  least : Nat
  /-- the greatest number of times, if there is one -/
  most : Option Nat

/-- A repeated part. Repeating what matches the empty text alone adds nothing. -/
def Part.repeated (part : Part) (counts : Counts) : Part :=
  let copies := max counts.least (counts.most.getD (counts.least + 1))
  let copies := if part.isPlace then min copies 1 else copies
  { depth := part.depth + 1
    size := copies * (part.size + stateSize) + 2 * stateSize
    isPlace := part.isPlace || counts.most == some 0
    repeatable := true }

/-- Repeat the last part. -/
def repeatLast? (parts : List Part) (counts : Counts) : Option (List Part) :=
  match parts.getLast? with
  | some part => if part.repeatable then some (parts.dropLast ++ [part.repeated counts]) else none
  | none => none

/-- A count in braces, with blanks around it. -/
def readCount? (mode : Mode) : Nat → List Char → List Char → Option (List Char × List Char)
  | 0, _, _ => none
  | fuel + 1, digits, cs =>
    match cs with
    | c :: rest =>
      if c.isDigit then readCount? mode fuel (digits ++ [c]) (skip mode rest)
      else some (digits, skip mode (Text.trimStart cs))
    | [] => some (digits, [])

/-- The number that a count stands for: missing if there are no digits. -/
def countValue? (digits : List Char) : Option (Option Nat) :=
  if digits.isEmpty then some none
  else
    let n := digits.foldl (fun n c => 10 * n + (c.toNat - '0'.toNat)) 0
    if n ≤ maxCount then some (some n) else none

/-- A number with blanks around it, or nothing. -/
def readNumber? (mode : Mode) (cs : List Char) : Option (Option Nat × List Char) := do
  let cs := Text.trimStart cs
  let (digits, rest) ← readCount? mode (cs.length + 1) [] cs
  some (← countValue? digits, rest)

/-- The counts of a repetition, after the opening brace. -/
def readCounts? (mode : Mode) (cs : List Char) : Option (Counts × List Char) := do
  let (least, rest) ← readNumber? mode (skip mode cs)
  let least ← least
  match rest with
  | '\x7d' :: rest => some (⟨least, some least⟩, rest)
  | ',' :: rest =>
    match skip mode rest with
    | '\x7d' :: rest => some (⟨least, none⟩, rest)
    | rest =>
      let (most, rest) ← readNumber? mode rest
      let most ← most
      match rest with
      | '\x7d' :: rest => if least ≤ most then some (⟨least, some most⟩, rest) else none
      | _ => none
  | _ => none

/-- Drop the mark of a repetition that takes as little as it can. -/
def dropLazy : List Char → List Char
  | '?' :: rest => rest
  | cs => cs

/-- May the character stand in the name of a group? -/
def isNameChar (first : Bool) (c : Char) : Bool :=
  if first then c == '_' || Text.isAlphabetic c
  else c == '_' || c == '.' || c == '[' || c == ']' || Text.isAlphanumeric c

/-- The name of a group, which is new, up to its closing bracket. -/
def readName? (names : List String) (cs : List Char) : Option (String × List Char) :=
  let name := cs.takeWhile (· != '>')
  match name, cs.dropWhile (· != '>') with
  | first :: others, '>' :: rest =>
    let text := String.ofList name
    if isNameChar true first && others.all (isNameChar false) && !names.contains text then
      some (text, rest)
    else none
  | _, _ => none

/-- The switches of a group and the character that ends them; each may be given once, and a
minus must not be the last. -/
def readSwitches? : List Char → List Char → Option (List Char × Char × List Char)
  | _, [] => none
  | seen, c :: rest =>
    if c == ':' || c == ')' then
      if seen.getLast? == some '-' then none else some (seen, c, rest)
    else if "imsUuRx-".toList.contains c && !seen.contains c then
      readSwitches? (seen ++ [c]) rest
    else none

/-- The mode after the switches. Those after a minus are turned off. -/
def Mode.switched (mode : Mode) : Bool → List Char → Mode
  | _, [] => mode
  | on, c :: rest =>
    if c = '-' then mode.switched false rest
    else
      let mode := if c = 'u' then { mode with unicode := on }
        else if c = 'x' then { mode with verbose := on } else mode
      mode.switched on rest

/-- What an opening parenthesis begins. -/
inductive Opening where
  /-- switches for the rest of the group -/
  | switches (mode : Mode)
  /-- a group, with its mode and the names of groups so far -/
  | group (mode : Mode) (names : List String)

/-- What follows an opening parenthesis. -/
def readOpening? (mode : Mode) (names : List String) (cs : List Char) :
    Option (Opening × List Char) :=
  match skip mode cs with
  | '?' :: '=' :: _ => none
  | '?' :: '!' :: _ => none
  | '?' :: '<' :: '=' :: _ => none
  | '?' :: '<' :: '!' :: _ => none
  | '?' :: 'P' :: '<' :: rest =>
    (readName? names rest).map fun (name, rest) => (.group mode (name :: names), rest)
  | '?' :: '<' :: rest =>
    (readName? names rest).map fun (name, rest) => (.group mode (name :: names), rest)
  | '?' :: rest => do
    let (switches, closing, rest) ← readSwitches? [] rest
    let inner := mode.switched true switches
    if closing = ':' then some (.group inner names, rest)
    else if switches.isEmpty then none
    else some (.switches inner, rest)
  | rest => some (.group mode names, rest)

/-- A single character outside of brackets. Without Unicode it must be a whole character. -/
def Atom.part? (mode : Mode) : Atom → Option Part
  | .literal c byte =>
    if byte && !mode.unicode && 128 ≤ c.toNat then none
    else some ⟨0, stateSize * c.utf8Size, false, true⟩
  | .perl letter => (perlPart? mode letter).map fun p => ⟨0, p.size, false, true⟩
  | .property => some ⟨0, propertySize, false, true⟩
  | .place => some ⟨0, stateSize, true, true⟩

/-- A character, an escape, a place or any character. -/
def readPrimitive? (mode : Mode) : List Char → Option (Part × List Char)
  | [] => none
  | '\\' :: rest => do
    let (atom, rest) ← readEscape? mode rest
    some (← atom.part? mode, rest)
  | '.' :: rest => if mode.unicode then some (⟨0, 600, false, true⟩, rest) else none
  | '^' :: rest => some (⟨0, stateSize, true, true⟩, rest)
  | '$' :: rest => some (⟨0, stateSize, true, true⟩, rest)
  | c :: rest => do some (← (Atom.literal c false).part? mode, rest)

/-- The branches of a group, up to its closing parenthesis or the end; at most `fuel`
steps. Gives the names of groups so far, too. -/
def readBranches? :
    Nat → Mode → List String → List (List Part) → List Part → List Char →
      Option (Part × List String × List Char)
  | 0, _, _, _, _, _ => none
  | fuel + 1, mode, names, branches, current, cs =>
    match skip mode cs with
    | [] => some (branchesPart (branches ++ [current]), names, [])
    | ')' :: rest => some (branchesPart (branches ++ [current]), names, ')' :: rest)
    | '|' :: rest => readBranches? fuel mode names (branches ++ [current]) [] rest
    | '(' :: rest =>
      match readOpening? mode names rest with
      | none => none
      | some (.switches mode, rest) =>
        readBranches? fuel mode names branches (current ++ [⟨0, 0, true, false⟩]) rest
      | some (.group inner names, rest) =>
        match readBranches? fuel inner names [] [] rest with
        | some (part, names, ')' :: rest) =>
          readBranches? fuel mode names branches (current ++ [part.grouped]) rest
        | _ => none
    | '[' :: rest => do
      let (part, rest) ← readClass? mode (rest.length + 1) rest
      readBranches? fuel mode names branches
        (current ++ [⟨part.depth, part.size, false, true⟩]) rest
    | '?' :: rest => do
      let current ← repeatLast? current ⟨0, some 1⟩
      readBranches? fuel mode names branches current (dropLazy rest)
    | '*' :: rest => do
      let current ← repeatLast? current ⟨0, none⟩
      readBranches? fuel mode names branches current (dropLazy rest)
    | '+' :: rest => do
      let current ← repeatLast? current ⟨1, none⟩
      readBranches? fuel mode names branches current (dropLazy rest)
    | '\x7b' :: rest => do
      let (counts, rest) ← readCounts? mode rest
      let current ← repeatLast? current counts
      readBranches? fuel mode names branches current (dropLazy (skip mode rest))
    | rest => do
      let (part, rest) ← readPrimitive? mode rest
      readBranches? fuel mode names branches (current ++ [part]) rest

/-- Is the text a regular expression? -/
def isValid (text : String) : Bool :=
  match readBranches? (text.length + 1) ⟨false, true⟩ [] [] [] text.toList with
  | some (part, _, []) => part.depth ≤ maxNesting && part.size ≤ maxSize
  | _ => false

/-- The check that the program runs with. It gives no reasons. -/
def check : RegexCheck := fun text =>
  if isValid text then none else some "not a regular expression"

end LinkedData.Regex
