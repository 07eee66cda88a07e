/-!
Dates of the Gregorian calendar, carried back before its introduction and through year zero, from
the first of January -262143 to the end of 262142. A date that exists is the only kind there is:
the type carries the proof. Days are numbered from 1970-01-01. -/
namespace BucketQuery.Calendar

def isLeap (year : Int) : Bool := year % 4 == 0 && (year % 100 != 0 || year % 400 == 0)

def daysIn (year : Int) (month : Nat) : Nat :=
  if month = 2 then if isLeap year then 29 else 28
  else if month = 4 ∨ month = 6 ∨ month = 9 ∨ month = 11 then 30
  else 31

def firstYear : Int := -262143
def lastYear : Int := 262142

abbrev IsDate (year : Int) (month day : Nat) : Prop :=
  (firstYear ≤ year ∧ year ≤ lastYear) ∧ (1 ≤ month ∧ month ≤ 12) ∧
    1 ≤ day ∧ day ≤ daysIn year month

structure Date where
  year : Int
  month : Nat
  day : Nat
  valid : IsDate year month day
deriving DecidableEq, Repr

namespace Date

def of? (year : Int) (month day : Nat) : Option Date :=
  if h : IsDate year month day then some ⟨year, month, day, h⟩ else none

def epoch : Date := ⟨1970, 1, 1, by decide⟩

/-- Earlier years first, then earlier months, then earlier days. -/
protected abbrev Before (a b : Date) : Prop :=
  a.year < b.year ∨ a.year = b.year ∧ (a.month < b.month ∨ a.month = b.month ∧ a.day < b.day)

/-- Days from 0001-01-01 to the start of a year. -/
def daysBeforeYear (year : Int) : Int :=
  let y := year - 1
  365 * y + y / 4 - y / 100 + y / 400

/-- Days from the start of a year to the start of one of its months. -/
def daysBeforeMonth (year : Int) : Nat → Nat
  | 0 => 0
  | 1 => 0
  | month + 1 => daysBeforeMonth year month + daysIn year month

/-- Days from 0001-01-01 to 1970-01-01. -/
def epochDay : Int := 719162

def dayNumber (d : Date) : Int :=
  daysBeforeYear d.year + daysBeforeMonth d.year d.month + (d.day - 1) - epochDay

/-- The year that a day belongs to, counted from 0001-01-01. Whole cycles of 400, 100, 4 and one
years come off in turn; the last day of a cycle would open a year too many, which the bounds
prevent. -/
def yearOfDay (day : Int) : Int :=
  let inFourHundred := day % 146097
  let hundreds := min (inFourHundred / 36524) 3
  let inHundred := inFourHundred - hundreds * 36524
  let fours := inHundred / 1461
  let inFour := inHundred % 1461
  let ones := min (inFour / 365) 3
  400 * (day / 146097) + 100 * hundreds + 4 * fours + ones + 1

/-- The month and day of the month, looking on from the start of `month` for `left` months. -/
def monthAndDay (year : Int) : (left month day : Nat) → Nat × Nat
  | 0, month, day => (month, day + 1)
  | left + 1, month, day =>
    if day < daysIn year month then (month, day + 1)
    else monthAndDay year left (month + 1) (day - daysIn year month)

/-- The date with a given day number, if the calendar reaches it. -/
def ofDayNumber? (n : Int) : Option Date :=
  let day := n + epochDay
  let year := yearOfDay day
  let (month, day) := monthAndDay year 11 1 (day - daysBeforeYear year).toNat
  of? year month day

end Date

end BucketQuery.Calendar
