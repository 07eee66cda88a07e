import BucketQuery.Proofs.Calendar.Order
import Mathlib.Data.Int.Init
import Mathlib.Tactic.SplitIfs

/-! Day numbers count days.

The day after a date is told by the calendar alone: the next day of the month, or the first of the next
month, or the first of January. Counting on from 1970-01-01 that way, and back, reaches a date after as many
days as its day number says (`countsTo_iff`), and the date of a day number is the one with that number, as
far as the calendar goes (`ofDayNumber?_eq_some_iff`, `exists_dayNumber_iff`). -/
namespace BucketQuery.Calendar

namespace Date

/-! ### Years -/

def daysInYear (year : Int) : Nat := if isLeap year then 366 else 365

theorem isLeap_iff (year : Int) :
    isLeap year = true ↔ year % 4 = 0 ∧ (year % 100 ≠ 0 ∨ year % 400 = 0) := by
  simp [isLeap]

theorem daysInYear_cases (year : Int) :
    (year % 4 = 0 ∧ (year % 100 ≠ 0 ∨ year % 400 = 0)) ∧ daysInYear year = 366 ∨
      ¬ (year % 4 = 0 ∧ (year % 100 ≠ 0 ∨ year % 400 = 0)) ∧ daysInYear year = 365 := by
  rw [← isLeap_iff, daysInYear]
  split_ifs with h
  · exact .inl ⟨h, rfl⟩
  · exact .inr ⟨h, rfl⟩

theorem daysBeforeYear_succ (year : Int) :
    daysBeforeYear (year + 1) = daysBeforeYear year + daysInYear year := by
  have hdays := daysInYear_cases year
  simp only [daysBeforeYear]
  omega

theorem daysBeforeYear_mono {y z : Int} (h : y ≤ z) : daysBeforeYear y ≤ daysBeforeYear z := by
  simp only [daysBeforeYear]
  omega

/-- The days of whole cycles of 400, 100, 4 and one years. -/
theorem daysBeforeYear_cycles {q h f o : Int} (hh : 0 ≤ h ∧ h ≤ 3) (hf : 0 ≤ f ∧ f ≤ 24)
    (ho : 0 ≤ o ∧ o ≤ 3) :
    daysBeforeYear (400 * q + 100 * h + 4 * f + o + 1) = 146097 * q + 36524 * h + 1461 * f + 365 * o := by
  have hfours : (400 * q + 100 * h + 4 * f + o) / 4 = 100 * q + 25 * h + f := by omega
  have hhundreds : (400 * q + 100 * h + 4 * f + o) / 100 = 4 * q + h := by omega
  have hcycles : (400 * q + 100 * h + 4 * f + o) / 400 = q := by omega
  simp only [daysBeforeYear, Int.add_sub_cancel, hfours, hhundreds, hcycles]
  omega

/-- The year of a day has started by then and the next one has not. -/
theorem yearOfDay_spec (day : Int) :
    daysBeforeYear (yearOfDay day) ≤ day ∧ day < daysBeforeYear (yearOfDay day + 1) := by
  simp only [yearOfDay]
  generalize hr : day % 146097 = r
  generalize hq : day / 146097 = q
  generalize hh : min (r / 36524) 3 = h
  generalize hs : r - h * 36524 = s
  generalize hf : s / 1461 = f
  generalize hu : s % 1461 = u
  generalize ho : min (u / 365) 3 = o
  have hday : day = 146097 * q + 36524 * h + 1461 * f + u := by omega
  have hstart := daysBeforeYear_cycles (q := q) (h := h) (f := f) (o := o) (by omega) (by omega) (by omega)
  have hdays := daysInYear_cases (400 * q + 100 * h + 4 * f + o + 1)
  rw [daysBeforeYear_succ (400 * q + 100 * h + 4 * f + o + 1), hstart, hday]
  omega

/-- A year that has started by a day is not later than one that has not ended. -/
theorem year_le_of_day {day y z : Int} (hy : daysBeforeYear y ≤ day) (hz : day < daysBeforeYear (z + 1)) :
    y ≤ z := by
  refine Int.not_lt.mp fun hlt => ?_
  have hmono := daysBeforeYear_mono hlt
  omega

/-! ### Months -/

theorem daysBeforeMonth_succ (year : Int) {month : Nat} (h : 1 ≤ month) :
    daysBeforeMonth year (month + 1) = daysBeforeMonth year month + daysIn year month := by
  obtain ⟨m, rfl⟩ : ∃ m, month = m + 1 := ⟨month - 1, by omega⟩
  rfl

theorem daysBeforeMonth_mono (year : Int) {m n : Nat} (h : m ≤ n) :
    daysBeforeMonth year m ≤ daysBeforeMonth year n := by
  induction h with
  | refl => exact Nat.le_refl _
  | @step n _ ih =>
    refine Nat.le_trans ih ?_
    cases n with
    | zero => exact Nat.le_refl _
    | succ n => exact Nat.le_add_right _ _

/-- Twelve months are a year. -/
theorem daysBeforeMonth_thirteen (year : Int) : daysBeforeMonth year 13 = daysInYear year := by
  show 0 + 31 + daysIn year 2 + 31 + 30 + 31 + 30 + 31 + 31 + 30 + 31 + 30 + 31 = daysInYear year
  have hfebruary : daysIn year 2 = if isLeap year then 29 else 28 := rfl
  rw [hfebruary, daysInYear]
  split_ifs <;> rfl

/-- What is left of a year when a month starts decides the month and the day of the month. -/
theorem monthAndDay_spec (year : Int) (left month day : Nat) (hmonth : 1 ≤ month)
    (hleft : month + left = 12) (hday : daysBeforeMonth year month + day < daysBeforeMonth year 13) :
    let (m, d) := monthAndDay year left month day
    (1 ≤ m ∧ m ≤ 12) ∧ (1 ≤ d ∧ d ≤ daysIn year m) ∧
      daysBeforeMonth year m + d = daysBeforeMonth year month + day + 1 := by
  induction left generalizing month day with
  | zero =>
    obtain rfl : month = 12 := hleft
    have hlast : daysBeforeMonth year 13 = daysBeforeMonth year 12 + daysIn year 12 :=
      daysBeforeMonth_succ year (by decide)
    simp only [monthAndDay]
    omega
  | succ left ih =>
    have hnext := daysBeforeMonth_succ year hmonth
    rw [monthAndDay]
    split_ifs with h
    · simp only
      omega
    · have hrest := ih (month + 1) (day - daysIn year month) (by omega) (by omega) (by omega)
      simp only at hrest ⊢
      omega

/-! ### The number of a date -/

/-- A date lies in its year. -/
theorem dayNumber_in_year (d : Date) :
    daysBeforeYear d.year ≤ d.dayNumber + epochDay ∧ d.dayNumber + epochDay < daysBeforeYear (d.year + 1) := by
  have hmonth := d.valid.2.1
  have hday := d.valid.2.2
  have hnext := daysBeforeMonth_succ d.year hmonth.1
  have hyear := daysBeforeMonth_mono d.year (show d.month + 1 ≤ 13 by omega)
  rw [daysBeforeMonth_thirteen] at hyear
  rw [daysBeforeYear_succ, dayNumber]
  omega

/-- Later dates have greater numbers. -/
theorem dayNumber_lt {a b : Date} (h : a < b) : a.dayNumber < b.dayNumber := by
  have hda := a.valid.2.2
  have hdb := b.valid.2.2
  rcases h with hyear | ⟨hyear, hmonth | ⟨hmonth, hday⟩⟩
  · have ha := (dayNumber_in_year a).2
    have hb := (dayNumber_in_year b).1
    have hmono := daysBeforeYear_mono hyear
    omega
  · have hnext := daysBeforeMonth_succ a.year a.valid.2.1.1
    have hmono := daysBeforeMonth_mono a.year (show a.month + 1 ≤ b.month from hmonth)
    rw [dayNumber, dayNumber, ← hyear]
    omega
  · rw [dayNumber, dayNumber, ← hyear, ← hmonth]
    omega

theorem dayNumber_inj {a b : Date} : a.dayNumber = b.dayNumber ↔ a = b := by
  refine ⟨fun h => ?_, congrArg dayNumber⟩
  have hab : ¬ a < b := fun hlt => by
    have := dayNumber_lt hlt
    omega
  have hba : ¬ b < a := fun hlt => by
    have := dayNumber_lt hlt
    omega
  have hnot : ¬ a.Before b ∧ ¬ b.Before a := ⟨hab, hba⟩
  rw [eq_iff_figures]
  simp only [Date.Before] at hnot
  omega

/-- The figures that belong to a day number are those of a month and a day, and have the number. -/
theorem ofDayNumber?_figures (n : Int) :
    ∃ m k, ofDayNumber? n = of? (yearOfDay (n + epochDay)) m k ∧ (1 ≤ m ∧ m ≤ 12) ∧
      (1 ≤ k ∧ k ≤ daysIn (yearOfDay (n + epochDay)) m) ∧
      daysBeforeYear (yearOfDay (n + epochDay)) + daysBeforeMonth (yearOfDay (n + epochDay)) m + k =
        n + epochDay + 1 := by
  rw [ofDayNumber?]
  have hyear := yearOfDay_spec (n + epochDay)
  generalize yearOfDay (n + epochDay) = year at hyear ⊢
  have hdays := daysBeforeYear_succ year
  rw [← daysBeforeMonth_thirteen] at hdays
  have hstart : daysBeforeMonth year 1 = 0 := rfl
  obtain ⟨hmonth, hday, hsum⟩ := monthAndDay_spec year 11 1 (n + epochDay - daysBeforeYear year).toNat
    (by decide) rfl (by omega)
  refine ⟨_, _, rfl, hmonth, hday, ?_⟩
  omega

theorem of?_eq_some_iff {year : Int} {month day : Nat} {d : Date} :
    of? year month day = some d ↔ d.year = year ∧ d.month = month ∧ d.day = day := by
  rw [of?]
  constructor
  · intro h
    split at h
    · cases h
      exact ⟨rfl, rfl, rfl⟩
    · cases h
  · rintro ⟨rfl, rfl, rfl⟩
    exact dif_pos d.valid

theorem exists_of?_iff (year : Int) (month day : Nat) :
    (∃ d, of? year month day = some d) ↔ IsDate year month day := by
  constructor
  · rintro ⟨d, h⟩
    obtain ⟨rfl, rfl, rfl⟩ := of?_eq_some_iff.mp h
    exact d.valid
  · exact fun h => ⟨_, dif_pos h⟩

/-- The date of a day number is the one that has it. -/
theorem ofDayNumber?_eq_some_iff {n : Int} {d : Date} : ofDayNumber? n = some d ↔ d.dayNumber = n := by
  obtain ⟨m, k, hof, hm, hk, hsum⟩ := ofDayNumber?_figures n
  rw [hof]
  have hnumber {e : Date} (he : of? (yearOfDay (n + epochDay)) m k = some e) : e.dayNumber = n := by
    obtain ⟨hyear, hmonth, hday⟩ := of?_eq_some_iff.mp he
    rw [dayNumber, hyear, hmonth, hday]
    omega
  refine ⟨hnumber, fun hd => ?_⟩
  have hyear : yearOfDay (n + epochDay) = d.year := by
    have hstart := yearOfDay_spec (n + epochDay)
    have hin := dayNumber_in_year d
    rw [hd] at hin
    exact Int.le_antisymm (year_le_of_day hstart.1 hin.2) (year_le_of_day hin.1 hstart.2)
  obtain ⟨e, he⟩ := (exists_of?_iff _ m k).mpr ⟨hyear ▸ d.valid.1, hm, hk⟩
  rw [he, dayNumber_inj.mp ((hnumber he).trans hd.symm)]

/-! ### The ends of the calendar -/

def first : Date := ⟨firstYear, 1, 1, by decide⟩
def last : Date := ⟨lastYear, 12, 31, by decide⟩

/-- Between its ends the calendar has no gaps. -/
theorem exists_dayNumber_iff (n : Int) :
    (∃ d : Date, d.dayNumber = n) ↔ first.dayNumber ≤ n ∧ n ≤ last.dayNumber := by
  have hfirst : first.dayNumber + epochDay = daysBeforeYear firstYear := by decide
  have hlast : last.dayNumber + epochDay + 1 = daysBeforeYear (lastYear + 1) := by decide
  constructor
  · rintro ⟨d, rfl⟩
    have hd := dayNumber_in_year d
    have hlow := daysBeforeYear_mono d.valid.1.1
    have hhigh := daysBeforeYear_mono (Int.add_le_add_right d.valid.1.2 1)
    omega
  · rintro ⟨hlow, hhigh⟩
    obtain ⟨m, k, hof, hm, hk, -⟩ := ofDayNumber?_figures n
    have hspec := yearOfDay_spec (n + epochDay)
    have hyear : firstYear ≤ yearOfDay (n + epochDay) ∧ yearOfDay (n + epochDay) ≤ lastYear :=
      ⟨year_le_of_day (by omega) hspec.2, year_le_of_day hspec.1 (by omega)⟩
    obtain ⟨d, hd⟩ := (exists_of?_iff _ m k).mpr ⟨hyear, hm, hk⟩
    exact ⟨d, ofDayNumber?_eq_some_iff.mp (hof.trans hd)⟩

/-! ### Counting -/

/-- The day after, by the calendar; the last day has none. -/
def tomorrow? (d : Date) : Option Date :=
  if d.day < daysIn d.year d.month then of? d.year d.month (d.day + 1)
  else if d.month < 12 then of? d.year (d.month + 1) 1
  else of? (d.year + 1) 1 1

/-- Behind the last day of December a year is over. -/
theorem dayNumber_of_yearEnd {d : Date} (hday : ¬ d.day < daysIn d.year d.month) (hmonth : ¬ d.month < 12) :
    d.dayNumber + epochDay + 1 = daysBeforeYear (d.year + 1) := by
  have hvalid := d.valid.2
  have hdecember : d.month = 12 := by omega
  have hyear : daysBeforeMonth d.year 13 = daysBeforeMonth d.year 12 + daysIn d.year 12 :=
    daysBeforeMonth_succ d.year (by decide)
  rw [daysBeforeMonth_thirteen] at hyear
  rw [hdecember] at hday hvalid
  rw [daysBeforeYear_succ, dayNumber, hdecember]
  omega

theorem dayNumber_tomorrow {d e : Date} (h : d.tomorrow? = some e) : e.dayNumber = d.dayNumber + 1 := by
  have hvalid := d.valid.2
  have hnext := daysBeforeMonth_succ d.year hvalid.1.1
  rw [tomorrow?] at h
  split_ifs at h with hday hmonth
  · obtain ⟨hy, hm, hd⟩ := of?_eq_some_iff.mp h
    rw [dayNumber, dayNumber, hy, hm, hd]
    omega
  · obtain ⟨hy, hm, hd⟩ := of?_eq_some_iff.mp h
    rw [dayNumber, dayNumber, hy, hm, hd, hnext]
    omega
  · obtain ⟨hy, hm, hd⟩ := of?_eq_some_iff.mp h
    have hend := dayNumber_of_yearEnd hday hmonth
    have hstart : daysBeforeMonth (d.year + 1) 1 = 0 := rfl
    rw [dayNumber, hy, hm, hd, hstart]
    omega

/-- Tomorrow is the day with the next number. -/
theorem tomorrow?_eq_some_iff {d e : Date} : d.tomorrow? = some e ↔ e.dayNumber = d.dayNumber + 1 := by
  refine ⟨dayNumber_tomorrow, fun h => ?_⟩
  have hvalid := d.valid
  obtain ⟨t, ht⟩ : ∃ t, d.tomorrow? = some t := by
    rw [tomorrow?]
    split_ifs with hday hmonth
    · exact (exists_of?_iff ..).mpr ⟨hvalid.1, hvalid.2.1, by omega, hday⟩
    · have hdays := (daysIn_bounds d.year (d.month + 1)).1
      exact (exists_of?_iff ..).mpr ⟨hvalid.1, ⟨by omega, hmonth⟩, by omega, by omega⟩
    · have hend := dayNumber_of_yearEnd hday hmonth
      have hlater : d.year + 1 ≤ e.year := year_le_of_day (by omega) (dayNumber_in_year e).2
      have hyear : d.year + 1 ≤ lastYear := Int.le_trans hlater e.valid.1.2
      have hdays := (daysIn_bounds (d.year + 1) 1).1
      exact (exists_of?_iff ..).mpr ⟨⟨by omega, hyear⟩, by decide, by decide, by omega⟩
  rw [ht, dayNumber_inj.mp ((dayNumber_tomorrow ht).trans h.symm)]

/-- A date is a number of days after 1970-01-01, or before, counted one by one. -/
inductive CountsTo : Int → Date → Prop
  | epoch : CountsTo 0 epoch
  | forward {n : Int} {d e : Date} : CountsTo n d → d.tomorrow? = some e → CountsTo (n + 1) e
  | back {n : Int} {d e : Date} : CountsTo n e → d.tomorrow? = some e → CountsTo (n - 1) d

theorem dayNumber_epoch : epoch.dayNumber = 0 := by decide

/-- Day numbers count days. -/
theorem countsTo_iff {n : Int} {d : Date} : CountsTo n d ↔ d.dayNumber = n := by
  constructor
  · intro h
    induction h with
    | epoch => exact dayNumber_epoch
    | forward _ htomorrow ih => rw [dayNumber_tomorrow htomorrow, ih]
    | back _ htomorrow ih =>
      have := dayNumber_tomorrow htomorrow
      omega
  · have hends : first.dayNumber ≤ 0 ∧ 0 ≤ last.dayNumber := by decide
    -- Between the epoch and the date there is a day for every number.
    induction n using Int.induction_on generalizing d with
    | zero =>
      intro h
      obtain rfl := dayNumber_inj.mp (h.trans dayNumber_epoch.symm)
      exact .epoch
    | succ i ih =>
      intro h
      have hd := (exists_dayNumber_iff _).mp ⟨d, h⟩
      obtain ⟨y, hy⟩ := (exists_dayNumber_iff (i : Int)).mpr (by omega)
      exact .forward (ih hy) (tomorrow?_eq_some_iff.mpr (by omega))
    | pred i ih =>
      intro h
      have hd := (exists_dayNumber_iff _).mp ⟨d, h⟩
      obtain ⟨t, ht⟩ := (exists_dayNumber_iff (-i : Int)).mpr (by omega)
      exact .back (ih ht) (tomorrow?_eq_some_iff.mpr (by omega))

end Date

/-! ### Seconds -/

/-- There is an instant in the calendar that many seconds after the start of 1970. -/
def InCalendar (seconds : Int) : Prop :=
  86400 * Date.first.dayNumber ≤ seconds ∧ seconds < 86400 * (Date.last.dayNumber + 1)

instance (seconds : Int) : Decidable (InCalendar seconds) := inferInstanceAs (Decidable (_ ∧ _))

theorem inCalendar_iff (seconds : Int) :
    InCalendar seconds ↔ -8334601228800 ≤ seconds ∧ seconds ≤ 8210266876799 := by
  have hfirst : 86400 * Date.first.dayNumber = -8334601228800 := by decide
  have hlast : 86400 * (Date.last.dayNumber + 1) = 8210266876800 := by decide
  rw [InCalendar, hfirst, hlast]
  omega

namespace Instant

/-- The instant at which a second starts, by its number after the start of 1970: so many days on, at the
second of the day that is left. -/
structure StartsSecond (t : Instant) (seconds : Int) : Prop where
  date : Date.CountsTo (seconds / 86400) t.date
  second : (t.second : Int) = seconds % 86400
  nano : t.nano = 0

variable {t : Instant} {seconds : Int}

theorem StartsSecond.unique {others : Int} (h : t.StartsSecond seconds) (h' : t.StartsSecond others) :
    seconds = others := by
  have hdays := (Date.countsTo_iff.mp h.date).symm.trans (Date.countsTo_iff.mp h'.date)
  have hsecond := h.second.symm.trans h'.second
  omega

theorem StartsSecond.wholeSecond_eq (h : t.StartsSecond seconds) : t.wholeSecond = t := by
  obtain ⟨date, second, nano, valid⟩ := t
  obtain rfl : nano = 0 := h.nano
  simp only [wholeSecond, Nat.zero_div, Nat.mul_zero]

theorem second_of_day_valid (seconds : Int) : IsClock (seconds % 86400).toNat 0 := by
  rw [IsClock, billion]
  omega

/-- The start of a second on its day. -/
theorem startsSecond_of_day {d : Date} (h : d.dayNumber = seconds / 86400) :
    StartsSecond ⟨d, (seconds % 86400).toNat, 0, second_of_day_valid seconds⟩ seconds where
  date := Date.countsTo_iff.mpr h
  second := by
    show ((seconds % 86400).toNat : Int) = _
    omega
  nano := rfl

theorem ofUnix?_eq_some_iff : ofUnix? seconds = some t ↔ t.StartsSecond seconds := by
  have hclock := second_of_day_valid seconds
  rw [ofUnix?, Option.bind_eq_some_iff]
  constructor
  · rintro ⟨d, hd, ht⟩
    rw [of?, dif_pos hclock] at ht
    cases ht
    exact startsSecond_of_day (Date.ofDayNumber?_eq_some_iff.mp hd)
  · intro h
    refine ⟨t.date, Date.ofDayNumber?_eq_some_iff.mpr (Date.countsTo_iff.mp h.date), ?_⟩
    have hsecond : (seconds % 86400).toNat = t.second := by
      have := h.second
      omega
    rw [of?, dif_pos hclock, Option.some.injEq]
    obtain ⟨date, second, nano, valid⟩ := t
    obtain rfl : nano = 0 := h.nano
    obtain rfl : second = (seconds % 86400).toNat := hsecond.symm
    rfl

theorem exists_startsSecond_iff : (∃ t : Instant, t.StartsSecond seconds) ↔ InCalendar seconds := by
  have hdays : InCalendar seconds ↔ ∃ d : Date, d.dayNumber = seconds / 86400 := by
    rw [Date.exists_dayNumber_iff, InCalendar]
    omega
  rw [hdays]
  constructor
  · rintro ⟨t, h⟩
    exact ⟨t.date, Date.countsTo_iff.mp h.date⟩
  · rintro ⟨d, hd⟩
    exact ⟨_, startsSecond_of_day hd⟩

theorem ofUnix?_eq_none (h : ¬ InCalendar seconds) : ofUnix? seconds = none := by
  rw [Option.eq_none_iff_forall_ne_some]
  exact fun t ht => h (exists_startsSecond_iff.mp ⟨t, ofUnix?_eq_some_iff.mp ht⟩)

end Instant

end BucketQuery.Calendar
