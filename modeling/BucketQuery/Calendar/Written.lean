import BucketQuery.Calendar.Instant

/-!
Dates and instants as text. Figures are padded with zeros, so texts of one kind sort as their
instants do while the year has four digits; a year beyond those is signed. -/
namespace BucketQuery.Calendar

/-- The decimal digits of `n`, with zeros in front up to `width`. -/
def padded (width n : Nat) : List Char :=
  let ds := Nat.toDigits 10 n
  List.replicate (width - ds.length) '0' ++ ds

def yearText (year : Int) : List Char :=
  if 0 ≤ year ∧ year ≤ 9999 then padded 4 year.toNat
  else (if year < 0 then '-' else '+') :: padded 4 year.natAbs

namespace Date

def monthChars (d : Date) : List Char := yearText d.year ++ '-' :: padded 2 d.month
def dayChars (d : Date) : List Char := d.monthChars ++ '-' :: padded 2 d.day

/-- `YYYY-MM` -/
def monthText (d : Date) : String := String.ofList d.monthChars

/-- `YYYY-MM-DD` -/
def text (d : Date) : String := String.ofList d.dayChars

end Date

namespace Instant

def clockChars (t : Instant) : List Char :=
  padded 2 t.hour ++ ':' :: (padded 2 t.minute ++ ':' :: padded 2 t.secondShown)

/-- `YYYY-MM-DD HH:MM:SS` -/
def text (t : Instant) : String := String.ofList (t.date.dayChars ++ ' ' :: t.clockChars)

/-- The part of a second in thousandths, millionths or billionths, whichever is the coarsest exact. -/
def fractionChars (nanos : Nat) : List Char :=
  if nanos = 0 then []
  else if nanos % 1000000 = 0 then '.' :: padded 3 (nanos / 1000000)
  else if nanos % 1000 = 0 then '.' :: padded 6 (nanos / 1000)
  else '.' :: padded 9 nanos

/-- `YYYY-MM-DDTHH:MM:SS`, and the part of a second where there is one. -/
def exactText (t : Instant) : String :=
  String.ofList (t.date.dayChars ++ 'T' :: (t.clockChars ++ fractionChars t.fraction))

end Instant

end BucketQuery.Calendar
