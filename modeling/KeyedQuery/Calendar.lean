import KeyedQuery.Numeral.Integer

/-!
# Dates and moments

Calendar dates of the proleptic Gregorian calendar, moments of a day down to the nanosecond, and
their texts. A leap second is a second 59 with a billion nanoseconds or more; it is written as
second 60.
-/

namespace KeyedQuery

/-- The decimal text of a number, filled with zeros in front to at least `width` digits. -/
def Numeral.padded (width n : Nat) : String :=
  let digits := Nat.toDigits 10 n
  String.ofList (List.replicate (width - digits.length) '0' ++ digits)

namespace Calendar

def isLeapYear (year : Int) : Bool :=
  year % 4 == 0 && (year % 100 != 0 || year % 400 == 0)

/-- The number of days of a month, counted from 1; no days for a number that is no month. -/
def daysInMonth (year : Int) (month : Nat) : Nat :=
  if month = 2 then (if isLeapYear year then 29 else 28)
  else if month = 4 ∨ month = 6 ∨ month = 9 ∨ month = 11 then 30
  else if 1 ≤ month ∧ month ≤ 12 then 31
  else 0

end Calendar

/-- A calendar date. Years reach from -262143 to 262142. -/
structure Date where
  year : Int
  month : Nat
  day : Nat
  year_range : -262143 ≤ year ∧ year ≤ 262142
  day_range : 1 ≤ day ∧ day ≤ Calendar.daysInMonth year month

namespace Date

def ofParts? (year : Int) (month day : Nat) : Option Date :=
  if h : -262143 ≤ year ∧ year ≤ 262142 then
    if h' : 1 ≤ day ∧ day ≤ Calendar.daysInMonth year month then
      some ⟨year, month, day, h, h'⟩
    else none
  else none

/-- The text of a year: at least four digits, with a sign unless it lies between 0 and 9999. -/
def yearText (year : Int) : String :=
  if 0 ≤ year ∧ year ≤ 9999 then Numeral.padded 4 year.natAbs
  else (if year < 0 then "-" else "+") ++ Numeral.padded 4 year.natAbs

def text (d : Date) : String :=
  yearText d.year ++ "-" ++ Numeral.padded 2 d.month ++ "-" ++ Numeral.padded 2 d.day

end Date

structure Moment where
  date : Date
  hour : Nat
  minute : Nat
  second : Nat
  nanosecond : Nat
  time_range : hour < 24 ∧ minute < 60 ∧ second < 60 ∧ nanosecond < 2000000000 ∧
    (1000000000 ≤ nanosecond → second = 59)

namespace Moment

def ofParts? (date : Date) (hour minute second nanosecond : Nat) : Option Moment :=
  if h : hour < 24 ∧ minute < 60 ∧ second < 60 ∧ nanosecond < 2000000000 ∧
      (1000000000 ≤ nanosecond → second = 59) then
    some ⟨date, hour, minute, second, nanosecond, h⟩
  else none

/-- The fraction of a second in thousandths, millionths or billionths, the coarsest that is exact;
nothing for a whole second. -/
def fractionText (nanosecond : Nat) : String :=
  if nanosecond = 0 then ""
  else if nanosecond % 1000000 = 0 then "." ++ Numeral.padded 3 (nanosecond / 1000000)
  else if nanosecond % 1000 = 0 then "." ++ Numeral.padded 6 (nanosecond / 1000)
  else "." ++ Numeral.padded 9 nanosecond

def text (m : Moment) : String :=
  m.date.text ++ " " ++ Numeral.padded 2 m.hour ++ ":" ++ Numeral.padded 2 m.minute ++ ":" ++
    Numeral.padded 2 (m.second + m.nanosecond / 1000000000) ++
    fractionText (m.nanosecond % 1000000000)

end Moment

end KeyedQuery
