/-!
# Binary floating-point numbers of 64 bits

A number is its encoding: a sign bit, eleven exponent bits and 52 fraction bits.
Nothing here computes with floating-point operations. Every finite magnitude is a
whole multiple of the smallest one, `2^-1074`, so a finite number is a sign and a
natural number of such *units*, and all questions about it are questions about
naturals:

* `units` gives the exact magnitude;
* `ofRatio` rounds an exact fraction to the nearest number, a tie to the even one;
* `mul` and `div` round the exact product and quotient of the units.

The 63 magnitude bits are ordered like the magnitudes themselves, and a significand
that overflows its 52 bits carries into the exponent. That is why `ofRatio` may
simply add the two.
-/

namespace LinkedData

/-- A binary floating-point number of 64 bits. -/
structure Binary64 where
  /-- sign, exponent and fraction, from the highest bit down -/
  bits : UInt64
  deriving DecidableEq, Inhabited

namespace Binary64

/-- One more than the largest fraction. -/
def fractionSize : Nat := 1 <<< 52

/-- The magnitude bits of the infinities; what lies above them is not a number. -/
def infinityMagnitude : Nat := 2047 * fractionSize

/-- The number of units in one. -/
def unitsPerOne : Nat := 1 <<< 1074

/-- The number with this sign and these magnitude bits. -/
def ofMagnitude (negative : Bool) (magnitude : Nat) : Binary64 :=
  ⟨UInt64.ofNat (if negative then (1 <<< 63) + magnitude else magnitude)⟩

/-- Is the sign bit set? -/
def isNegative (x : Binary64) : Bool :=
  1 <<< 63 ≤ x.bits.toNat

/-- All bits but the sign. -/
def magnitude (x : Binary64) : Nat :=
  x.bits.toNat % (1 <<< 63)

/-- Not a number: the magnitude lies above that of infinity. -/
def isNaN (x : Binary64) : Bool :=
  infinityMagnitude < x.magnitude

/-- One of the two infinities. -/
def isInfinite (x : Binary64) : Bool :=
  x.magnitude == infinityMagnitude

/-- Neither infinite nor not a number. -/
def isFinite (x : Binary64) : Bool :=
  x.magnitude < infinityMagnitude

/-- One of the two zeros. -/
def isZero (x : Binary64) : Bool :=
  x.magnitude == 0

/-- The zero with the given sign. -/
def zero (negative : Bool) : Binary64 :=
  ofMagnitude negative 0

/-- The infinity with the given sign. -/
def infinity (negative : Bool) : Binary64 :=
  ofMagnitude negative infinityMagnitude

/-- The one text-readable value that is not a number. -/
def nan : Binary64 :=
  ofMagnitude false (infinityMagnitude + fractionSize / 2)

/-- The same number with the other sign. -/
def neg (x : Binary64) : Binary64 :=
  ofMagnitude (!x.isNegative) x.magnitude

/-- The significand: the fraction, with the leading one of a normal number. -/
def significand (x : Binary64) : Nat :=
  if x.magnitude < fractionSize then x.magnitude
  else fractionSize + x.magnitude % fractionSize

/-- The number of units that one step of the significand is worth, as a power of two. -/
def scale (x : Binary64) : Nat :=
  x.magnitude / fractionSize - 1

/-- The exact magnitude of a finite number, counted in units of `2^-1074`. -/
def units (x : Binary64) : Nat :=
  x.significand <<< x.scale

/-- The quotient rounded to the nearest natural, a tie to the even one. -/
def roundHalfEven (numerator denominator : Nat) : Nat :=
  let quotient := numerator / denominator
  let twice := 2 * (numerator % denominator)
  if twice < denominator then quotient
  else if denominator < twice then quotient + 1
  else quotient + quotient % 2

/-- The number nearest to the fraction, a tie to the even one, with the given sign.
Beyond the largest finite number lies infinity. -/
def ofRatio (negative : Bool) (numerator denominator : Nat) : Binary64 :=
  let scaled := numerator * unitsPerOne
  let exponent := Nat.log2 (scaled / denominator) - 52
  let rounded := roundHalfEven scaled (denominator <<< exponent)
  ofMagnitude negative (min (exponent * fractionSize + rounded) infinityMagnitude)

/-- The number nearest to a natural. -/
def ofNat (n : Nat) : Binary64 :=
  ofRatio false n 1

/-- The product of two finite numbers, rounded to nearest. -/
def mul (x y : Binary64) : Binary64 :=
  ofRatio (x.isNegative != y.isNegative) (x.units * y.units) (unitsPerOne * unitsPerOne)

/-- The quotient of two finite numbers, rounded to nearest; the divisor is not zero. -/
def div (x y : Binary64) : Binary64 :=
  ofRatio (x.isNegative != y.isNegative) x.units y.units

/-- Numeric equality: a value that is not a number differs from everything, and the two
zeros are equal. -/
def equals (x y : Binary64) : Bool :=
  !x.isNaN && !y.isNaN && (x.bits == y.bits || (x.isZero && y.isZero))

end Binary64

end LinkedData
