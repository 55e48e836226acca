/-!
# Timestamps

A timestamp is a date and a time of day on a clock that runs a fixed number of minutes
ahead of universal time. Second 60 is allowed in every minute. Every timestamp carries the
proof that its parts are in range, so whoever reads one has nothing left to check.

Two timestamps are the same *instant* when their universal times agree, whatever their
offsets.
-/

namespace LinkedData

namespace Calendar

/-- Leap years of the calendar extended to all years. -/
def isLeapYear (year : Int) : Bool :=
  year % 4 == 0 && (year % 100 != 0 || year % 400 == 0)

/-- The number of days in a month. -/
def daysInMonth (year : Int) (month : Nat) : Nat :=
  if month = 2 then (if isLeapYear year then 29 else 28)
  else if month = 4 ∨ month = 6 ∨ month = 9 ∨ month = 11 then 30
  else 31

/-- The number of days in a year before a month starts. -/
def daysBefore (year : Int) : Nat → Nat
  | 0 => 0
  | 1 => 0
  | month + 1 => daysBefore year month + daysInMonth year month

/-- Days from the first day of year one. -/
def dayNumber (year : Int) (month day : Nat) : Int :=
  let past := year - 1
  365 * past + past / 4 - past / 100 + past / 400 + daysBefore year month + day

end Calendar

/-- The parts of a timestamp are in range. -/
def Timestamp.InRange (year : Int) (month day hour minute second nanosecond : Nat)
    (offset : Int) : Prop :=
  (-262143 ≤ year ∧ year ≤ 262142) ∧ (1 ≤ month ∧ month ≤ 12) ∧
    (1 ≤ day ∧ day ≤ Calendar.daysInMonth year month) ∧
    hour < 24 ∧ minute < 60 ∧ second ≤ 60 ∧ nanosecond < 1000000000 ∧
    (-1440 < offset ∧ offset < 1440)

instance (year : Int) (month day hour minute second nanosecond : Nat) (offset : Int) :
    Decidable (Timestamp.InRange year month day hour minute second nanosecond offset) := by
  unfold Timestamp.InRange; infer_instance

/-- A date, a time of day, and the offset of the clock that shows them. -/
structure Timestamp where
  /-- the year, with a year zero and years before it -/
  year : Int
  /-- the month, from 1 -/
  month : Nat
  /-- the day of the month, from 1 -/
  day : Nat
  /-- the hour -/
  hour : Nat
  /-- the minute -/
  minute : Nat
  /-- the second; 60 is a leap second -/
  second : Nat
  /-- the fraction of the second -/
  nanosecond : Nat
  /-- how many minutes the clock is ahead of universal time -/
  offset : Int
  /-- all parts are in range -/
  inRange : Timestamp.InRange year month day hour minute second nanosecond offset
  deriving DecidableEq

namespace Timestamp

/-- The timestamp with the given parts, if they are in range. -/
def ofParts? (year : Int) (month day hour minute second nanosecond : Nat) (offset : Int) :
    Option Timestamp :=
  if h : InRange year month day hour minute second nanosecond offset then
    some ⟨year, month, day, hour, minute, second, nanosecond, offset, h⟩
  else none

theorem ofParts?_parts (t : Timestamp) :
    ofParts? t.year t.month t.day t.hour t.minute t.second t.nanosecond t.offset = some t := by
  simp [ofParts?, t.inRange]

/-- Seconds of universal time. A leap second counts as the second before it. -/
def seconds (t : Timestamp) : Int :=
  Calendar.dayNumber t.year t.month t.day * 86400
    + t.hour * 3600 + t.minute * 60 + min t.second 59 - t.offset * 60

/-- Nanoseconds after the second; a leap second adds a whole one. -/
def nanoseconds (t : Timestamp) : Nat :=
  t.nanosecond + if t.second = 60 then 1000000000 else 0

/-- Are the universal times the same? -/
def sameInstant (s t : Timestamp) : Bool :=
  s.seconds == t.seconds && s.nanoseconds == t.nanoseconds

theorem sameInstant_self (t : Timestamp) : t.sameInstant t = true := by
  simp [sameInstant]

end Timestamp

end LinkedData
