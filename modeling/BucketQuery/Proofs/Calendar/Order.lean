import BucketQuery.Proofs.Calendar.Years

/-! Texts of the calendar sort as what they write.

The text of a month, of a day and of an instant sorts by the year first, as it is written, and by what is
behind it only between equal years, where it sorts as the calendar does (`Date.monthText_first_iff`,
`Date.text_first_iff`, `Instant.text_first_iff`). While years have no sign they sort as numbers, and so
texts sort as the calendar does altogether (`Date.monthText_lt_iff`, `Date.text_lt_iff`,
`Instant.text_lt_iff`). A text of an instant does not have the part of a second, but the leap second has a
second of its own. -/
namespace BucketQuery.Calendar

theorem daysIn_bounds (year : Int) (month : Nat) : 28 ≤ daysIn year month ∧ daysIn year month ≤ 31 := by
  unfold daysIn
  split
  · split <;> decide
  · split <;> decide

namespace Date

/-- The year is written with four figures and no sign. -/
def Unsigned (d : Date) : Prop := 0 ≤ d.year ∧ d.year ≤ 9999

instance (d : Date) : Decidable d.Unsigned := inferInstanceAs (Decidable (_ ∧ _))

theorem month_start_valid (d : Date) : IsDate d.year d.month 1 :=
  ⟨d.valid.1, d.valid.2.1, Nat.le_refl 1, Nat.le_trans (by decide) (daysIn_bounds _ _).1⟩

/-- The first day of the month. -/
def monthStart (d : Date) : Date := ⟨d.year, d.month, 1, d.month_start_valid⟩

theorem year_start_valid (d : Date) : IsDate d.year 1 1 :=
  ⟨d.valid.1, by decide, Nat.le_refl 1, Nat.le_trans (by decide) (daysIn_bounds _ _).1⟩

/-- The first day of the year. -/
def yearStart (d : Date) : Date := ⟨d.year, 1, 1, d.year_start_valid⟩

theorem month_lt (d : Date) : d.month < 10 ^ 2 := Nat.lt_of_le_of_lt d.valid.2.1.2 (by decide)

theorem day_lt (d : Date) : d.day < 10 ^ 2 :=
  Nat.lt_of_le_of_lt (Nat.le_trans d.valid.2.2.2 (daysIn_bounds _ _).2) (by decide)

theorem eq_iff_figures {a b : Date} :
    a = b ↔ a.year = b.year ∧ a.month = b.month ∧ a.day = b.day := by
  cases a
  cases b
  rw [mk.injEq]

instance : LT Date := ⟨Date.Before⟩

theorem year_lt_iff (a b : Date) : a.year < b.year ↔ a.yearStart < b.yearStart := by
  show _ ↔ a.yearStart.Before b.yearStart
  simp only [Date.Before, yearStart, Nat.lt_irrefl, and_false, or_false]

end Date

namespace Instant

instance : LT Instant := ⟨Instant.Before⟩

instance (a b : Instant) : Decidable (a < b) := inferInstanceAs (Decidable (a.Before b))

/-- Not later. -/
instance : LE Instant := ⟨fun a b => ¬ b < a⟩

instance (a b : Instant) : Decidable (a ≤ b) := inferInstanceAs (Decidable (¬ b < a))

theorem midnight_lt_iff (a b : Date) : midnight a < midnight b ↔ a < b := by
  show a < b ∨ a = b ∧ (0 < 0 ∨ 0 = 0 ∧ 0 < 0) ↔ a < b
  simp only [Nat.lt_irrefl, and_false, or_false]

theorem atHour_wholeSecond (t : Instant) : t.atHour.wholeSecond = t.atHour := by
  simp only [wholeSecond, atHour, Nat.zero_div, Nat.mul_zero]

theorem atHour_lt_iff (a b : Instant) :
    a.atHour < b.atHour ↔ a.date < b.date ∨ a.date = b.date ∧ a.hour < b.hour := by
  show a.date < b.date ∨ a.date = b.date ∧ (3600 * a.hour < 3600 * b.hour ∨ _ ∧ 0 < 0) ↔ _
  simp only [Nat.lt_irrefl, and_false, or_false, Nat.mul_lt_mul_left (show 0 < 3600 by decide)]

/-- The hour goes on as the seconds do. -/
theorem lt_of_atHour_lt {a b : Instant} (h : a.atHour < b.atHour) : a.wholeSecond < b.wholeSecond := by
  rcases (atHour_lt_iff a b).mp h with hdate | ⟨hdate, hhour⟩
  · exact .inl hdate
  · refine .inr ⟨hdate, .inl ?_⟩
    rw [hour, hour] at hhour
    show a.second < b.second
    omega

theorem hour_lt (t : Instant) : t.hour < 10 ^ 2 := by
  have h := t.valid.1
  rw [hour]
  omega

theorem minute_lt (t : Instant) : t.minute < 10 ^ 2 := by
  rw [minute]
  omega

theorem secondShown_lt (t : Instant) : t.secondShown < 10 ^ 2 := by
  have h := t.valid.2
  rw [billion] at h
  rw [secondShown, billion]
  omega

end Instant

/-! ### The order of texts -/

/-- Dates without their days sort by their years, as these are written, and by their months. -/
theorem monthChars_append_lt_iff (a b : Date) (cs ds : List Char) :
    a.monthChars ++ cs < b.monthChars ++ ds ↔
      YearFirst a.year b.year ∨ a.year = b.year ∧ (a.month < b.month ∨ a.month = b.month ∧ cs < ds) := by
  rw [Date.monthChars, Date.monthChars, List.append_assoc, List.append_assoc, List.cons_append,
    List.cons_append, yearText_append_lt_iff, padded_append_lt_iff (by decide) a.month_lt b.month_lt]

theorem dayChars_append_lt_iff (a b : Date) (cs ds : List Char) :
    a.dayChars ++ cs < b.dayChars ++ ds ↔
      YearFirst a.year b.year ∨ a.year = b.year ∧ (a.month < b.month ∨ a.month = b.month ∧
        (a.day < b.day ∨ a.day = b.day ∧ cs < ds)) := by
  rw [Date.dayChars, Date.dayChars, List.append_assoc, List.append_assoc, monthChars_append_lt_iff,
    List.cons_append, List.cons_append, List.cons_lt_cons_iff,
    padded_append_lt_iff (by decide) a.day_lt b.day_lt]
  simp only [Char.lt_irrefl, false_or, true_and]

theorem Date.monthText_first_iff (a b : Date) :
    a.monthText < b.monthText ↔
      YearFirst a.year b.year ∨ a.year = b.year ∧ a.month < b.month := by
  have h := monthChars_append_lt_iff a b [] []
  rw [List.append_nil, List.append_nil] at h
  rw [Date.monthText, Date.monthText, String.lt_iff, String.toList_ofList, String.toList_ofList, h]
  simp only [List.lt_irrefl, and_false, or_false]

theorem Date.text_first_iff (a b : Date) :
    a.text < b.text ↔
      YearFirst a.year b.year ∨ a.year = b.year ∧ (a.month < b.month ∨ a.month = b.month ∧
        a.day < b.day) := by
  have h := dayChars_append_lt_iff a b [] []
  rw [List.append_nil, List.append_nil] at h
  rw [Date.text, Date.text, String.lt_iff, String.toList_ofList, String.toList_ofList, h]
  simp only [List.lt_irrefl, and_false, or_false]

section Unsigned
variable {a b : Date} (ha : a.Unsigned) (hb : b.Unsigned)
include ha hb

theorem Date.monthText_lt_iff : a.monthText < b.monthText ↔ a.monthStart < b.monthStart := by
  rw [Date.monthText_first_iff, yearFirst_iff_of_four ha hb]
  show _ ↔ a.monthStart.Before b.monthStart
  simp only [Date.Before, Date.monthStart, Nat.lt_irrefl, and_false, or_false]

theorem Date.text_lt_iff : a.text < b.text ↔ a < b := by
  rw [Date.text_first_iff, yearFirst_iff_of_four ha hb]
  rfl

end Unsigned

namespace Instant

theorem clockChars_lt_iff (a b : Instant) :
    a.clockChars < b.clockChars ↔
      a.second < b.second ∨ a.second = b.second ∧ a.wholeSecond.nano < b.wholeSecond.nano := by
  have hlast := padded_append_lt_iff (by decide) a.secondShown_lt b.secondShown_lt [] []
  rw [List.append_nil, List.append_nil] at hlast
  rw [clockChars, clockChars, padded_append_lt_iff (by decide) a.hour_lt b.hour_lt,
    List.cons_lt_cons_iff, padded_append_lt_iff (by decide) a.minute_lt b.minute_lt,
    List.cons_lt_cons_iff, hlast]
  have ha := a.valid
  have hb := b.valid
  simp only [IsClock, billion] at ha hb
  simp only [Char.lt_irrefl, List.lt_irrefl, false_or, true_and, and_false, or_false, hour, minute,
    secondShown, wholeSecond, billion]
  omega

/-- Of equal dates the clock decides, of equal years the date. -/
theorem text_first_iff (a b : Instant) :
    a.text < b.text ↔
      YearFirst a.date.year b.date.year ∨ a.date.year = b.date.year ∧ a.wholeSecond < b.wholeSecond := by
  rw [text, text, String.lt_iff, String.toList_ofList, String.toList_ofList, dayChars_append_lt_iff,
    List.cons_lt_cons_iff, clockChars_lt_iff]
  simp only [Char.lt_irrefl, false_or, true_and]
  refine or_congr Iff.rfl (and_congr_right fun hyear => ?_)
  show _ ↔ a.date.Before b.date ∨ a.date = b.date ∧ _
  rw [Date.eq_iff_figures]
  simp only [Date.Before, hyear, Int.lt_irrefl, false_or, true_and, or_assoc, and_or_left, and_assoc]
  rfl

/-- Texts of instants sort as the instants do without the part of a second. -/
theorem text_lt_iff {a b : Instant} (ha : a.date.Unsigned) (hb : b.date.Unsigned) :
    a.text < b.text ↔ a.wholeSecond < b.wholeSecond := by
  rw [text_first_iff, yearFirst_iff_of_four ha hb]
  refine ⟨fun h => ?_, fun h => ?_⟩
  · rcases h with hyear | ⟨-, h⟩
    · exact .inl (.inl hyear)
    · exact h
  · rcases h with (hyear | ⟨hyear, h⟩) | ⟨hdate, h⟩
    · exact .inl hyear
    · exact .inr ⟨hyear, .inl (.inr ⟨hyear, h⟩)⟩
    · exact .inr ⟨congrArg Date.year hdate, .inr ⟨hdate, h⟩⟩

theorem atHour_text_lt_iff {a b : Instant} (ha : a.date.Unsigned) (hb : b.date.Unsigned) :
    a.atHour.text < b.atHour.text ↔ a.atHour < b.atHour := by
  have h : a.atHour.text < b.atHour.text ↔ a.atHour.wholeSecond < b.atHour.wholeSecond :=
    text_lt_iff ha hb
  rw [h, atHour_wholeSecond, atHour_wholeSecond]

theorem atHour_text {t : Instant} (h : t.second % 3600 = 0) : t.atHour.text = t.text := by
  have hvalid := t.valid.2
  rw [billion] at hvalid
  have hhour : t.atHour.hour = t.hour := by
    simp only [hour, atHour]
    omega
  have hminute : t.atHour.minute = t.minute := by
    simp only [minute, atHour, hour]
    omega
  have hsecond : t.atHour.secondShown = t.secondShown := by
    simp only [secondShown, atHour, hour, billion]
    omega
  rw [text, text, clockChars, clockChars, hhour, hminute, hsecond]
  rfl

-- The leap second is behind the last second of its minute and ahead of the next one.
example :
    let day : Date := ⟨2016, 12, 31, by decide⟩
    let last : Instant := ⟨day, 86399, 999999999, by decide⟩
    let leap : Instant := ⟨day, 86399, 1500000000, by decide⟩
    last.text = "2016-12-31 23:59:59" ∧ leap.text = "2016-12-31 23:59:60" := by
  decide +kernel

end Instant

end BucketQuery.Calendar
