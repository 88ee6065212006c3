/-!
# Dates and times of day

Dates of the proleptic Gregorian calendar, with a year zero and years before it, and times of day
down to the nanosecond. A time may fall into a leap second: it then carries a second billion of
nanoseconds on top of the second before.

* `Date.text` writes `2024-02-29`, with a sign for the years that four digits cannot hold.
* `Time.ofParts?` has leap seconds after second 59 only. `Time.withNanosecond?` changes a time that
  there is already, and can put a leap second behind any second.
* `Time.text` writes `23:59:60.250`: the fraction takes none, three, six or nine digits, the fewest
  that are exact. A leap second is written as the second after the one it follows.
-/

namespace QuerySql

/-- `n` in decimal, with zeros in front up to `width` digits. -/
def paddedNat (width n : Nat) : String :=
  let digits := Nat.repr n
  String.ofList (List.replicate (width - digits.length) '0') ++ digits

/-- Every fourth year is a leap year, but of the years that end a century only every fourth. -/
def isLeapYear (year : Int) : Bool :=
  year % 4 == 0 && (year % 100 != 0 || year % 400 == 0)

/-- The length of a month, zero for a month that there is not. -/
def daysInMonth (year : Int) : Nat → Nat
  | 1 | 3 | 5 | 7 | 8 | 10 | 12 => 31
  | 4 | 6 | 9 | 11 => 30
  | 2 => if isLeapYear year then 29 else 28
  | _ => 0

/-- A day of the calendar. -/
structure Date where
  year : Int
  month : Nat
  day : Nat
  day_pos : 0 < day
  day_le : day ≤ daysInMonth year month
  deriving DecidableEq

namespace Date

/-- The day with these numbers, if the calendar has it. -/
def ofParts? (year : Int) (month day : Nat) : Option Date :=
  if h : 0 < day ∧ day ≤ daysInMonth year month then some ⟨year, month, day, h.1, h.2⟩ else none

/-- At least four digits; a minus sign before year zero, a plus sign after year 9999. -/
def yearText (year : Int) : String :=
  if year < 0 then "-" ++ paddedNat 4 year.natAbs
  else if 9999 < year then "+" ++ Nat.repr year.natAbs
  else paddedNat 4 year.natAbs

/-- Year, month and day, joined by hyphens. -/
def text (d : Date) : String :=
  yearText d.year ++ "-" ++ paddedNat 2 d.month ++ "-" ++ paddedNat 2 d.day

end Date

/-- A time of day. -/
structure Time where
  hour : Nat
  minute : Nat
  second : Nat
  /-- Counts on through a leap second, so up to two billion. -/
  nanosecond : Nat
  hour_lt : hour < 24
  minute_lt : minute < 60
  second_lt : second < 60
  nanosecond_lt : nanosecond < 2000000000
  deriving DecidableEq

namespace Time

/-- The time with these numbers, if a day has it. Only second 59 is followed by a leap second. -/
def ofParts? (hour minute second nanosecond : Nat) : Option Time :=
  if h : (hour < 24 ∧ minute < 60 ∧ second < 60) ∧ nanosecond < 2000000000 ∧
      (nanosecond < 1000000000 ∨ second = 59) then
    some ⟨hour, minute, second, nanosecond, h.1.1, h.1.2.1, h.1.2.2, h.2.1⟩
  else none

/-- The time with other nanoseconds. Nobody asks which second it is that they count on from. -/
def withNanosecond? (t : Time) (nanosecond : Nat) : Option Time :=
  if h : nanosecond < 2000000000 then some { t with nanosecond, nanosecond_lt := h } else none

/-- The second as a clock shows it: one more in a leap second, so 60 after second 59. -/
def clockSecond (t : Time) : Nat := t.second + t.nanosecond / 1000000000

/-- The nanoseconds since the clock's second began. -/
def fraction (t : Time) : Nat := t.nanosecond % 1000000000

/-- A fraction of a second: a point and the fewest of three, six or nine digits that are exact, and
nothing for a whole second. -/
def fractionText (n : Nat) : String :=
  if n = 0 then ""
  else if n % 1000000 = 0 then "." ++ paddedNat 3 (n / 1000000)
  else if n % 1000 = 0 then "." ++ paddedNat 6 (n / 1000)
  else "." ++ paddedNat 9 n

/-- Hour, minute and second, joined by colons, and the fraction. -/
def text (t : Time) : String :=
  paddedNat 2 t.hour ++ ":" ++ paddedNat 2 t.minute ++ ":" ++ paddedNat 2 t.clockSecond ++
    fractionText t.fraction

end Time

/-- A day and a time on it, in no particular zone. -/
structure Timestamp where
  date : Date
  time : Time
  deriving DecidableEq

/-- The date, the letter T and the time. -/
def Timestamp.text (t : Timestamp) : String := t.date.text ++ "T" ++ t.time.text

/-- What zone a timestamp is read in: none in particular, universal time, or the time on site. -/
inductive TimestampKind where
  | unspecified | utc | onSite
  deriving DecidableEq

namespace TimestampKind

/-- All kinds, in their fixed order. -/
def all : List TimestampKind := [.unspecified, .utc, .onSite]

/-- The number that stands for the kind in SQL. -/
def code : TimestampKind → Nat
  | unspecified => 0
  | utc => 1
  | onSite => 2

/-- The name a kind is written with. -/
def name : TimestampKind → String
  | unspecified => "Unspecified"
  | utc => "Utc"
  | onSite => "Local"

end TimestampKind

end QuerySql
