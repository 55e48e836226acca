import LinkedData.Timestamp.Basic

/-!
# The text of timestamps

The form of RFC 3339: years of four digits, or a sign and at least four digits outside
that range; no fraction, or one of three, six or nine digits, whichever is enough; and
the offset always as hours and minutes.
-/

namespace LinkedData.Timestamp

/-- The decimal digits of `n`, with zeros in front up to a width. -/
def padded (width n : Nat) : String :=
  let digits := toString n
  String.ofList (List.replicate (width - digits.length) '0') ++ digits

/-- The year. -/
def yearText (year : Int) : String :=
  if 0 ≤ year ∧ year ≤ 9999 then padded 4 year.toNat
  else (if year < 0 then "-" else "+") ++ padded 4 year.natAbs

/-- The fraction of the second. -/
def fractionText (nanosecond : Nat) : String :=
  if nanosecond = 0 then ""
  else if nanosecond % 1000000 = 0 then "." ++ padded 3 (nanosecond / 1000000)
  else if nanosecond % 1000 = 0 then "." ++ padded 6 (nanosecond / 1000)
  else "." ++ padded 9 nanosecond

/-- The offset. -/
def offsetText (offset : Int) : String :=
  (if offset < 0 then "-" else "+") ++ padded 2 (offset.natAbs / 60) ++ ":"
    ++ padded 2 (offset.natAbs % 60)

/-- The text of a timestamp. -/
def text (t : Timestamp) : String :=
  yearText t.year ++ "-" ++ padded 2 t.month ++ "-" ++ padded 2 t.day ++ "T"
    ++ padded 2 t.hour ++ ":" ++ padded 2 t.minute ++ ":" ++ padded 2 t.second
    ++ fractionText t.nanosecond ++ offsetText t.offset

end LinkedData.Timestamp
