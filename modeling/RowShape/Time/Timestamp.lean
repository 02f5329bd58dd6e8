import RowShape.Number.Decimal
import RowShape.Time.Calendar

/-!
A local date and time of day with its offset from UTC, and its RFC 3339 text.
A leap second is written as second 60.
-/

namespace RowShape

structure TimeOfDay where
  hour : Nat
  minute : Nat
  second : Nat
  nanos : Nat
  hour_lt : hour < 24
  minute_lt : minute < 60
  second_le : second ≤ 60
  nanos_lt : nanos < 1000000000
deriving DecidableEq, Repr

structure Timestamp where
  date : Date
  time : TimeOfDay
  /-- Seconds east of UTC. -/
  offset : Int
  offset_lt : offset.natAbs < 86400
deriving DecidableEq, Repr

namespace TimeOfDay

def of? (hour minute second nanos : Nat) : Option TimeOfDay :=
  if h : hour < 24 ∧ minute < 60 ∧ second ≤ 60 ∧ nanos < 1000000000 then
    some ⟨hour, minute, second, nanos, h.1, h.2.1, h.2.2.1, h.2.2.2⟩
  else none

def midnight : TimeOfDay := ⟨0, 0, 0, 0, by decide, by decide, by decide, by decide⟩

/-- Seconds since midnight; a leap second counts with the second before it. -/
def seconds (t : TimeOfDay) : Nat := t.hour * 3600 + t.minute * 60 + min t.second 59

def ofSeconds (n : Nat) (h : n < 86400) : TimeOfDay :=
  ⟨n / 3600, n / 60 % 60, n % 60, 0, by omega, by omega, by omega, by decide⟩

/-- No digits when there is no fraction, else three, six or nine, as few as keep it exact. -/
def fractionText (nanos : Nat) : List Char :=
  if nanos = 0 then []
  else if nanos % 1000000 = 0 then '.' :: paddedText 3 (nanos / 1000000)
  else if nanos % 1000 = 0 then '.' :: paddedText 6 (nanos / 1000)
  else '.' :: paddedText 9 nanos

def text (t : TimeOfDay) : List Char :=
  paddedText 2 t.hour ++ ':' :: paddedText 2 t.minute ++ ':' :: paddedText 2 t.second
    ++ fractionText t.nanos

end TimeOfDay

/-- Years of four digits stand alone; all others have a sign and at least four digits. -/
def yearText (year : Int) : List Char :=
  if 0 ≤ year ∧ year ≤ 9999 then paddedText 4 year.toNat
  else (if year < 0 then '-' else '+') :: paddedText 4 year.natAbs

def Date.text (d : Date) : List Char :=
  yearText d.year ++ '-' :: paddedText 2 d.month ++ '-' :: paddedText 2 d.day

/-- `Z` at UTC, else the sign, hours and minutes. -/
def offsetText (offset : Int) : List Char :=
  if offset = 0 then ['Z']
  else (if offset < 0 then '-' else '+')
    :: paddedText 2 (offset.natAbs / 3600) ++ ':' :: paddedText 2 (offset.natAbs / 60 % 60)

namespace Timestamp

def unixSeconds (t : Timestamp) : Int :=
  (t.date.dayNumber - 719162) * 86400 + t.time.seconds - t.offset

/-- Nanoseconds since the last second counted; a leap second adds a whole one. -/
def subsecond (t : Timestamp) : Nat :=
  if t.time.second = 60 then t.time.nanos + 1000000000 else t.time.nanos

/-- The years that local and UTC dates may have. -/
def firstYear : Int := -262143

def lastYear : Int := 262142

def supportsYear (year : Int) : Bool := firstYear ≤ year && year ≤ lastYear

/-- The timestamp with these parts, if its date is supported here and in UTC. -/
def of? (date : Date) (time : TimeOfDay) (offset : Int) : Option Timestamp :=
  if h : offset.natAbs < 86400 then
    let t : Timestamp := ⟨date, time, offset, h⟩
    let utcDay := t.unixSeconds / 86400 + 719162
    if supportsYear date.year && supportsYear (Date.ofDayNumber utcDay).year then some t
    else none
  else none

def ofUnixSeconds? (seconds : Int) : Option Timestamp :=
  of? (.ofDayNumber (seconds / 86400 + 719162))
    (.ofSeconds (seconds % 86400).toNat (by omega)) 0

def text (t : Timestamp) : List Char :=
  t.date.text ++ 'T' :: t.time.text ++ offsetText t.offset

end Timestamp

end RowShape
