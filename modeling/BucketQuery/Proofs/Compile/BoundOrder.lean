import BucketQuery.Calendar.Reading
import BucketQuery.Proofs.Compile.DateRange

/-! The bounds of a range in the order of the warehouse.

A range asks for something only if its lower bound is not above its upper bound where the warehouse
compares them, texts by their bytes. For instants in the order of time that hangs on how their years are
written, and on nothing else: the order is kept unless the text of the later year is in front of that of
the earlier one (`bounds_sorted_iff`). Years of four figures never are. Behind 9999 and before zero they
can be, and instants there are within reach of an ordinary request: an offset carries the last evening
of 9999 over, and the range up to it is empty (`last_evening_unsorted`). -/
namespace BucketQuery

open Calendar (Date Instant YearFirst)
open Sql (Cells Truth)

namespace Calendar.Instant
variable {a b : Instant}

theorem year_le (h : a ≤ b) : ¬ b.date.year < a.date.year := fun hlt => h (.inl (.inl hlt))

theorem month_le (h : a ≤ b) : ¬ (b.date.year = a.date.year ∧ b.date.month < a.date.month) :=
  fun hlt => h (.inl (.inr ⟨hlt.1, .inl hlt.2⟩))

theorem date_le (h : a ≤ b) :
    ¬ (b.date.year = a.date.year ∧ (b.date.month < a.date.month ∨
      b.date.month = a.date.month ∧ b.date.day < a.date.day)) :=
  fun hlt => h (.inl (.inr hlt))

theorem wholeSecond_le (h : a ≤ b) : ¬ b.wholeSecond < a.wholeSecond := by
  rintro (hdate | ⟨hdate, hclock⟩)
  · exact h (.inl hdate)
  · refine h (.inr ⟨hdate, hclock.imp_right fun hnano => ⟨hnano.1, ?_⟩⟩)
    have hlt : billion * (b.nano / billion) < billion * (a.nano / billion) := hnano.2
    rw [billion] at hlt
    omega

theorem atHour_le (h : a ≤ b) : ¬ b.atHour.wholeSecond < a.atHour.wholeSecond := by
  rw [atHour_wholeSecond, atHour_wholeSecond]
  exact mt lt_of_atHour_lt (wholeSecond_le h)

end Calendar.Instant

namespace Compile

/-- The bound at the first instant is not above the bound at the second, where texts are compared by their
bytes and numbers by their values. -/
def BoundFormat.Sorted (f : BoundFormat) (a b : Instant) : Prop :=
  Cells.bytewise.compares .le (Cells.bytewise.value (f.value a)) (Cells.bytewise.value (f.value b)) = .true

/-- There are cells between two others exactly when these are in order. -/
theorem exists_between_iff (low high : Option (Rat ⊕ List UInt8)) :
    (∃ cell, Cells.bytewise.between cell low high = .true) ↔ Cells.bytewise.compares .le low high = .true := by
  constructor
  · rintro ⟨cell, h⟩
    obtain ⟨hlow, hhigh⟩ := Truth.and_eq_true.mp h
    match cell, low, high with
    | some (.inl x), some (.inl y), some (.inl z) =>
      have hle : y ≤ x := of_decide_eq_true (Truth.ofBool_eq_true.mp hlow)
      have hge : x ≤ z := of_decide_eq_true (Truth.ofBool_eq_true.mp hhigh)
      exact Truth.ofBool_eq_true.mpr (decide_eq_true (hle.trans hge))
    | some (.inr x), some (.inr y), some (.inr z) =>
      have hle : y ≤ x := of_decide_eq_true (Truth.ofBool_eq_true.mp hlow)
      have hge : x ≤ z := of_decide_eq_true (Truth.ofBool_eq_true.mp hhigh)
      exact Truth.ofBool_eq_true.mpr (decide_eq_true (List.le_trans hle hge))
    | none, _, _ | some (.inl _), none, _ | some (.inr _), none, _ | some (.inl _), some (.inr _), _
    | some (.inr _), some (.inl _), _ => cases hlow
    | some (.inl _), some (.inl _), none | some (.inr _), some (.inr _), none
    | some (.inl _), some (.inl _), some (.inr _) | some (.inr _), some (.inr _), some (.inl _) =>
      cases hhigh
  · intro h
    refine ⟨low, Truth.and_eq_true.mpr ⟨?_, h⟩⟩
    match low, high with
    | some (.inl x), some _ => exact Truth.ofBool_eq_true.mpr (decide_eq_true (le_refl x))
    | some (.inr x), some _ => exact Truth.ofBool_eq_true.mpr (decide_eq_true (List.le_refl x))
    | none, _ | some _, none => cases h

/-- A range asks for something exactly when its bounds are in order. -/
theorem exists_row_iff (r : Route) (a b : Instant) :
    (∃ row, ∀ e ∈ columnFilter r (some a) (some b), e.truth Cells.bytewise row = .true) ↔
      r.boundFormat.Sorted a b := by
  rw [BoundFormat.Sorted, ← exists_between_iff]
  constructor
  · rintro ⟨row, h⟩
    exact ⟨row r.dateColumn, h _ List.mem_cons_self⟩
  · rintro ⟨cell, h⟩
    exact ⟨fun _ => cell, List.forall_mem_singleton.mpr h⟩

/-- Behind the years nothing is out of order. -/
theorem not_lt_iff_of_rest {s t : String} {first rest : Prop} (h : t < s ↔ first ∨ rest) (hrest : ¬ rest) :
    ¬ t < s ↔ ¬ first := by
  rw [h, or_iff_left hrest]

theorem BoundFormat.sorted_iff {a b : Instant} (h : a ≤ b) (f : BoundFormat) :
    f.Sorted a b ↔ f = .year ∨ ¬ YearFirst b.date.year a.date.year := by
  cases f with
  | timestamp =>
    rw [or_iff_right (by rintro ⟨⟩)]
    exact (compares_text_iff .upper a.text b.text).trans
      (not_lt_iff_of_rest (Instant.text_first_iff b a) fun hrest => Instant.wholeSecond_le h hrest.2)
  | hour =>
    rw [or_iff_right (by rintro ⟨⟩)]
    exact (compares_text_iff .upper a.atHour.text b.atHour.text).trans
      (not_lt_iff_of_rest (Instant.text_first_iff b.atHour a.atHour) fun hrest =>
        Instant.atHour_le h hrest.2)
  | date =>
    rw [or_iff_right (by rintro ⟨⟩)]
    exact (compares_text_iff .upper a.date.text b.date.text).trans
      (not_lt_iff_of_rest (Date.text_first_iff b.date a.date) (Instant.date_le h))
  | month =>
    rw [or_iff_right (by rintro ⟨⟩)]
    exact (compares_text_iff .upper a.date.monthText b.date.monthText).trans
      (not_lt_iff_of_rest (Date.monthText_first_iff b.date a.date) (Instant.month_le h))
  | year =>
    exact ((compares_int_iff Cells.bytewise .upper a.date.year b.date.year).trans
      (iff_of_true (Instant.year_le h) (.inl rfl)))

/-- The bounds at instants in the order of time are in order too, unless they have text and the later
year is written so that it sorts in front of the earlier one, which years of four figures never do. A range
between the two asks for something exactly when its bounds are in order. -/
theorem bounds_sorted_iff {a b : Instant} (h : a ≤ b) :
    (∀ f : BoundFormat, f.Sorted a b ↔ f = .year ∨ ¬ YearFirst b.date.year a.date.year) ∧
    (a.date.Unsigned → b.date.Unsigned → ∀ f : BoundFormat, f.Sorted a b) ∧
    ∀ r : Route, (∃ row, ∀ e ∈ columnFilter r (some a) (some b), e.truth Cells.bytewise row = .true) ↔
      r.boundFormat.Sorted a b := by
  refine ⟨BoundFormat.sorted_iff h, fun ha hb f => ?_, fun r => exists_row_iff r a b⟩
  rw [BoundFormat.sorted_iff h, Calendar.yearFirst_iff_of_four hb ha]
  exact .inr (Instant.year_le h)

/-- The last day whose year has four figures. -/
def lastDay : Instant := .midnight ⟨9999, 12, 31, by decide⟩

/-- Half past midnight behind it. -/
def nextMorning : Instant := ⟨⟨10000, 1, 1, by decide⟩, 1800, 0, by decide⟩

theorem nextMorning_sorted :
    lastDay ≤ nextMorning ∧ BoundFormat.year.Sorted lastDay nextMorning ∧
      ¬ BoundFormat.month.Sorted lastDay nextMorning := by
  have hle : lastDay ≤ nextMorning := by decide
  have hfirst : YearFirst nextMorning.date.year lastDay.date.year := by decide +kernel
  have hsorted := (bounds_sorted_iff hle).1
  refine ⟨hle, (hsorted .year).mpr (.inl rfl), fun h => ?_⟩
  exact ((hsorted .month).mp h).elim (fun hf => nomatch hf) (absurd hfirst)

/-- Two texts in the order of time, both with a year of four figures, between which no row is. -/
theorem last_evening_unsorted :
    Instant.ofText? "9999-12-31" = some lastDay ∧
      Instant.ofText? "9999-12-31T23:30:00-01:00" = some nextMorning ∧ lastDay ≤ nextMorning ∧
      ¬ BoundFormat.date.Sorted lastDay nextMorning ∧
      ¬ ∃ row, ∀ e ∈ columnFilter (route .daily {}) (some lastDay) (some nextMorning),
        e.truth Cells.bytewise row = .true := by
  have hle : lastDay ≤ nextMorning := by decide
  have hfirst : YearFirst nextMorning.date.year lastDay.date.year := by decide +kernel
  have hunsorted : ¬ BoundFormat.date.Sorted lastDay nextMorning := fun h =>
    ((BoundFormat.sorted_iff hle .date).mp h).elim (fun hf => nomatch hf) (absurd hfirst)
  refine ⟨by decide +kernel, by decide +kernel, hle, hunsorted, ?_⟩
  rw [exists_row_iff]
  exact hunsorted

end Compile

end BucketQuery
