import LinkedData.Binary64.Basic

/-!
# Shortest decimals

The text of a finite number has the fewest digits that read back to it. The reals that
round to a number form an interval around it; its ends belong to it exactly when the
significand is even. For one digit, two digits and so on, the two neighbours of the number
on that decimal grid are tested against the interval. The first grid with a hit wins, and
of two hits the nearer; which of two equally near ones wins, and how the digits are laid
out, is for the format (`FloatFormat`) to say.
-/

namespace LinkedData.Binary64

/-- What a text format decides about numbers. -/
structure FloatFormat where
  /-- of two equally near candidates the upper one wins; otherwise the even one -/
  tieUp : Bool
  /-- the least decimal exponent that is written without an exponent -/
  leastPositional : Int
  /-- the least larger decimal exponent that is written with an exponent again -/
  positionalBelow : Int
  /-- is a plus written before an exponent that is not negative? -/
  plusSign : Bool

/-- A decimal `digits * 10^exponent`. -/
structure Decimal where
  /-- the digits, as one natural -/
  digits : Nat
  /-- the power of ten of the last digit -/
  exponent : Int
  deriving DecidableEq, Repr

/-- The interval of the reals that round to a number, as natural multiples of a quarter
unit. -/
structure Interval where
  /-- the number itself -/
  value : Nat
  /-- the lower end -/
  low : Nat
  /-- the upper end -/
  high : Nat
  /-- do the ends belong to the interval? -/
  closed : Bool

/-- The interval that rounds to a finite number. Below a power of two the neighbours are
twice as close. -/
def interval (x : Binary64) : Interval :=
  let gap := 1 <<< x.scale
  let value := 4 * x.units
  let atPower := x.magnitude % fractionSize == 0 && fractionSize < x.magnitude
  { value
    low := if atPower then value - gap else value - 2 * gap
    high := value + 2 * gap
    closed := x.significand % 2 == 0 }

/-- Quarter units in one. -/
def quartersPerOne : Nat := 4 * unitsPerOne

/-- Does `candidate / quartersPerOne`, scaled by `factor`, lie in the interval? -/
def Interval.holds (i : Interval) (factor candidate : Nat) : Bool :=
  if i.closed then i.low * factor ≤ candidate && candidate ≤ i.high * factor
  else i.low * factor < candidate && candidate < i.high * factor

/-- The decimal exponent one above the leading digit: the least `e` with `value < 10^e`. -/
def decimalPlaces (value : Nat) : Int :=
  let estimate : Int := (toString value).length - (toString quartersPerOne).length
  let below :=
    if 0 ≤ estimate then value < quartersPerOne * Nat.pow 10 estimate.toNat
    else value * Nat.pow 10 (-estimate).toNat < quartersPerOne
  if below then estimate else estimate + 1

/-- The neighbour of the number on the grid of multiples of `10^exponent` that reads back
to it, the nearer one if both do. -/
def onGrid? (i : Interval) (tieUp : Bool) (exponent : Int) : Option Decimal :=
  let factor := if 0 ≤ exponent then 1 else Nat.pow 10 (-exponent).toNat
  let step := if 0 ≤ exponent then quartersPerOne * Nat.pow 10 exponent.toNat else quartersPerOne
  let lower := i.value * factor / step
  let remainder := i.value * factor % step
  let lowerFits := i.holds factor (lower * step)
  let upperFits := i.holds factor ((lower + 1) * step)
  let nearer :=
    if 2 * remainder < step then lower
    else if step < 2 * remainder then lower + 1
    else if tieUp || lower % 2 == 1 then lower + 1
    else lower
  if lowerFits && upperFits then some ⟨nearer, exponent⟩
  else if lowerFits then some ⟨lower, exponent⟩
  else if upperFits then some ⟨lower + 1, exponent⟩
  else none

/-- Try grids of more and more digits. -/
def firstGrid (i : Interval) (tieUp : Bool) (exponent : Int) : Nat → Decimal
  | 0 => ⟨0, 0⟩
  | more + 1 =>
    match onGrid? i tieUp exponent with
    | some decimal => decimal
    | none => firstGrid i tieUp (exponent - 1) more

/-- Move zeros at the end of the digits into the exponent. -/
def Decimal.dropZeros (d : Decimal) : Nat → Decimal
  | 0 => d
  | fuel + 1 =>
    if d.digits ≠ 0 ∧ d.digits % 10 = 0 then
      Decimal.dropZeros ⟨d.digits / 10, d.exponent + 1⟩ fuel
    else d

/-- The shortest decimal of a finite number that is not zero. Seventeen digits tell any two
numbers apart. -/
def shortest (x : Binary64) (tieUp : Bool) : Decimal :=
  let i := x.interval
  (firstGrid i tieUp (decimalPlaces i.value - 1) 17).dropZeros 17

/-- A run of zeros. -/
def zeros (n : Nat) : String :=
  String.ofList (List.replicate n '0')

/-- Lay out a decimal: positionally, with at least one digit on each side of the point, or
with one digit before the point and an exponent. -/
def FloatFormat.layout (format : FloatFormat) (d : Decimal) : String :=
  let digits := toString d.digits
  let leading : Int := digits.length + d.exponent - 1
  if format.leastPositional ≤ leading && leading < format.positionalBelow then
    if 0 ≤ d.exponent then digits ++ zeros d.exponent.toNat ++ ".0"
    else if 0 ≤ leading then
      let whole := digits.toList.take (leading.toNat + 1)
      let fraction := digits.toList.drop (leading.toNat + 1)
      String.ofList whole ++ "." ++ String.ofList fraction
    else "0." ++ zeros ((-leading).toNat - 1) ++ digits
  else
    let first := String.ofList (digits.toList.take 1)
    let others := String.ofList (digits.toList.drop 1)
    let mantissa := if others.isEmpty then first else first ++ "." ++ others
    let sign := if leading < 0 then "-" else if format.plusSign then "+" else ""
    mantissa ++ "e" ++ sign ++ toString leading.natAbs

/-- The text of a finite number. -/
def FloatFormat.write (format : FloatFormat) (x : Binary64) : String :=
  let sign := if x.isNegative then "-" else ""
  if x.isZero then sign ++ "0.0" else sign ++ format.layout (x.shortest format.tieUp)

end LinkedData.Binary64
