import BucketQuery.Calendar.Date

/-!
An instant: a date, the second of the day, and nanoseconds. A leap second is the last second of a
minute with a billion nanoseconds or more, so it sorts after that second and before the next
minute. -/
namespace BucketQuery.Calendar

def billion : Nat := 1000000000

abbrev IsClock (second nano : Nat) : Prop :=
  second < 86400 ∧ (nano < billion ∨ second % 60 = 59 ∧ nano < 2 * billion)

structure Instant where
  date : Date
  second : Nat
  nano : Nat
  valid : IsClock second nano
deriving DecidableEq, Repr

namespace Instant

def of? (date : Date) (second nano : Nat) : Option Instant :=
  if h : IsClock second nano then some ⟨date, second, nano, h⟩ else none

def midnight (date : Date) : Instant := ⟨date, 0, 0, by decide⟩

/-- From the figures of a clock, where second 60 is the leap second. -/
def ofClock? (date : Date) (hour minute second nano : Nat) : Option Instant :=
  if hour < 24 ∧ minute < 60 then
    let start := 3600 * hour + 60 * minute
    if second < 60 then of? date (start + second) nano
    else if second = 60 then of? date (start + 59) (billion + nano)
    else none
  else none

def hour (t : Instant) : Nat := t.second / 3600
def minute (t : Instant) : Nat := t.second / 60 % 60

/-- The second a clock shows, 60 during a leap second. -/
def secondShown (t : Instant) : Nat := t.second % 60 + t.nano / billion

/-- The part of a second that has passed. -/
def fraction (t : Instant) : Nat := t.nano % billion

protected abbrev Before (a b : Instant) : Prop :=
  a.date.Before b.date ∨
    a.date = b.date ∧ (a.second < b.second ∨ a.second = b.second ∧ a.nano < b.nano)

theorem hour_start_valid (t : Instant) : IsClock (3600 * t.hour) 0 := by
  have h := t.valid.1
  simp only [IsClock, hour, billion]
  omega

/-- The start of the hour. -/
def atHour (t : Instant) : Instant := ⟨t.date, 3600 * t.hour, 0, t.hour_start_valid⟩

theorem whole_second_valid (t : Instant) : IsClock t.second (billion * (t.nano / billion)) := by
  have h := t.valid
  simp only [IsClock, billion] at h ⊢
  omega

/-- Without the part of a second; a leap second stays one. -/
def wholeSecond (t : Instant) : Instant :=
  ⟨t.date, t.second, billion * (t.nano / billion), t.whole_second_valid⟩

/-- The instant a number of seconds after the start of 1970. -/
def ofUnix? (seconds : Int) : Option Instant :=
  (Date.ofDayNumber? (seconds / 86400)).bind fun d => of? d (seconds % 86400).toNat 0

/-- The same reading of the clock some seconds earlier, the part of a second unchanged. -/
def earlier? (t : Instant) (seconds : Int) : Option Instant :=
  let s := t.second - seconds
  (Date.ofDayNumber? (t.date.dayNumber + s / 86400)).bind fun d => of? d (s % 86400).toNat t.nano

end Instant

end BucketQuery.Calendar
