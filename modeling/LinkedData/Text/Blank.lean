import LinkedData.Text.CodeRange

/-!
# Blank characters

The Unicode property `White_Space`: what is trimmed around numbers, and what makes
a setting count as empty.
-/

namespace LinkedData.Text

/-- The characters with the property `White_Space`. -/
def blankRanges : List CodeRange :=
  [(0x9, 0xd), (0x20, 0x20), (0x85, 0x85), (0xa0, 0xa0), (0x1680, 0x1680), (0x2000, 0x200a),
   (0x2028, 0x2029), (0x202f, 0x202f), (0x205f, 0x205f), (0x3000, 0x3000)]

/-- Is the character white space? -/
def isBlank (c : Char) : Bool :=
  inRanges blankRanges c

/-- Drop the white space at the front. -/
def trimStart (cs : List Char) : List Char :=
  cs.dropWhile isBlank

/-- Drop the white space at both ends. -/
def trim (cs : List Char) : List Char :=
  ((trimStart cs).reverse.dropWhile isBlank).reverse

end LinkedData.Text
