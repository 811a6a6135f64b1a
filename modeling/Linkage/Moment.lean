/-!
# Dates and times

A `Moment` is a day of the calendar, perhaps with a time of day, and that perhaps with its distance
from universal time. The calendar is carried back unchanged to its first year; `isValid` says that a
moment is on it.
-/

namespace Linkage

structure Clock where
  hour : Nat
  minute : Nat
  second : Nat
  micro : Nat
  /-- Minutes ahead of universal time, where that is known. -/
  offset : Option Int
deriving Repr, DecidableEq

structure Moment where
  year : Nat
  month : Nat
  day : Nat
  clock : Option Clock
deriving Repr, DecidableEq

namespace Moment

def isLeap (year : Nat) : Bool := year % 4 == 0 && (year % 100 != 0 || year % 400 == 0)

def daysIn (year month : Nat) : Nat :=
  if month = 2 then (if isLeap year then 29 else 28)
  else if month = 4 ∨ month = 6 ∨ month = 9 ∨ month = 11 then 30
  else 31

end Moment

/-- A time is less than a day away from universal time. -/
def Clock.isValid (c : Clock) : Bool :=
  c.hour < 24 && c.minute < 60 && c.second < 60 && c.micro < 1000000 &&
    c.offset.all fun m => m.natAbs < 24 * 60

def Moment.isValid (m : Moment) : Bool :=
  1 ≤ m.year && m.year ≤ 9999 && 1 ≤ m.month && m.month ≤ 12 && 1 ≤ m.day &&
    m.day ≤ Moment.daysIn m.year m.month && m.clock.all Clock.isValid

end Linkage
