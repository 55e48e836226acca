import LinkedData.Binary64.Basic

/-!
# Reading decimals

`ofDecimal` rounds the exact value of a decimal once. `ofDecimalTwoStep` is the quick way
that JSON documents are read with: the digits are rounded first, and then multiplied or
divided by a power of ten that is itself rounded. The two differ in the last place of some
numbers with many digits.

`read?` is the grammar of a number in a literal: an optional sign, then digits with an
optional point and an optional exponent, or one of the words `inf`, `infinity` and `nan`
in any mix of cases. There must be a digit before or after the point.
-/

namespace LinkedData.Binary64

/-- The value of a decimal digit. -/
def digitValue (c : Char) : Nat :=
  c.toNat - '0'.toNat

/-- The natural that the digits denote. -/
def ofDigits (digits : List Char) : Nat :=
  digits.foldl (fun n c => 10 * n + digitValue c) 0

/-- The number nearest to `digits * 10^exponent`. The two guards only keep the powers of
ten small: beyond them the result is infinite or zero. -/
def ofDecimal (negative : Bool) (digits : Nat) (exponent : Int) : Binary64 :=
  if digits = 0 then zero negative
  else
    let size : Int := Nat.log2 digits
    if 310 < exponent then infinity negative
    else if exponent * 3 + size < -1100 then zero negative
    else if 0 ≤ exponent then ofRatio negative (digits * Nat.pow 10 exponent.toNat) 1
    else ofRatio negative digits (Nat.pow 10 (-exponent).toNat)

/-- The largest power of ten that is finite. -/
def maxPower : Nat := 308

/-- Divide by `10^308` while the exponent is below `-308`; what is left is at least
`-308`, unless the number has become zero. -/
def scaleDown (x : Binary64) (exponent : Nat) : Nat → Binary64
  | 0 => x
  | fuel + 1 =>
    if exponent ≤ maxPower then x.div (ofNat (Nat.pow 10 exponent))
    else if x.isZero then x
    else scaleDown (x.div (ofNat (Nat.pow 10 maxPower))) (exponent - maxPower) fuel

/-- Round the digits, then scale by the rounded power of ten and round again. The result
is missing when it would be infinite. Two divisions by `10^308` leave zero, so four
steps are always enough. -/
def ofDecimalTwoStep (digits : Nat) (exponent : Int) : Option Binary64 :=
  let x := ofNat digits
  if exponent < 0 then some (x.scaleDown (-exponent).toNat 4)
  else if x.isZero then some x
  else if maxPower < exponent.toNat then none
  else
    let scaled := x.mul (ofNat (Nat.pow 10 exponent.toNat))
    if scaled.isFinite then some scaled else none

/-- Take a sign off the front: is it a minus, and what follows. -/
def splitSign : List Char → Bool × List Char
  | '-' :: rest => (true, rest)
  | '+' :: rest => (false, rest)
  | cs => (false, cs)

/-- The exponent part of a number, which must be all that is left: nothing, or `e`, a
sign, and digits. -/
def readExponent? : List Char → Option Int
  | [] => some 0
  | c :: rest =>
    if c == 'e' || c == 'E' then
      let (negative, digits) := splitSign rest
      if digits.isEmpty || !digits.all Char.isDigit then none
      else some (if negative then -(ofDigits digits : Int) else ofDigits digits)
    else none

/-- The words that stand for values that are not finite. -/
def readWord? (negative : Bool) (cs : List Char) : Option Binary64 :=
  let word := String.ofList (cs.map Char.toLower)
  if word == "inf" || word == "infinity" then some (infinity negative)
  else if word == "nan" then some (if negative then nan.neg else nan)
  else none

/-- Read a number without its sign. -/
def readUnsigned? (negative : Bool) (cs : List Char) : Option Binary64 :=
  let whole := cs.takeWhile Char.isDigit
  let afterWhole := cs.dropWhile Char.isDigit
  let (fraction, rest) :=
    match afterWhole with
    | '.' :: tail => (tail.takeWhile Char.isDigit, tail.dropWhile Char.isDigit)
    | _ => ([], afterWhole)
  if whole.isEmpty && fraction.isEmpty then none
  else
    (readExponent? rest).map fun exponent =>
      ofDecimal negative (ofDigits (whole ++ fraction)) (exponent - fraction.length)

/-- Read a number, which must be the whole text. -/
def read? (cs : List Char) : Option Binary64 :=
  let (negative, rest) := splitSign cs
  (readUnsigned? negative rest).or (readWord? negative rest)

end LinkedData.Binary64
