import BucketQuery.Proofs.Calendar.DateText
import BucketQuery.Proofs.Warehouse.Timestamp

/-! Dates and timestamps of the warehouse agree.

A date is a number of days and a timestamp a number of seconds, and each finds its way to the calendar
alone: the one by its day number, the other by microseconds that are kept at 64 bits and then by the second
they lie in. Where a day starts both lead to the same place. If the calendar reaches that day its text is
shown, and the timestamp adds midnight; if not, both show the bare number (`date_agrees_with_timestamp`). -/
namespace BucketQuery

open Calendar (Date InCalendar Instant)

namespace Calendar

/-! ### The start of a day -/

theorem Date.clockChars_midnight (d : Date) : (Instant.midnight d).clockChars = "00:00:00".toList := by
  have hhour : (Instant.midnight d).hour = 0 := Nat.zero_div 3600
  have hminute : (Instant.midnight d).minute = 0 := by
    rw [Instant.minute, Instant.midnight, Nat.zero_div, Nat.zero_mod]
  have hsecond : (Instant.midnight d).secondShown = 0 := by
    rw [Instant.secondShown, Instant.midnight, Nat.zero_mod, Nat.zero_div]
  rw [Instant.clockChars, hhour, hminute, hsecond]
  decide

theorem Date.midnight_text (d : Date) : (Instant.midnight d).text = d.text ++ " 00:00:00" := by
  have hdate : (Instant.midnight d).date = d := rfl
  have hspace : ' ' :: "00:00:00".toList = " 00:00:00".toList := by decide
  rw [Instant.text, d.clockChars_midnight, hdate, hspace, Date.text, String.ofList_append, String.ofList_toList]

/-- A day starts with its first second. -/
theorem Date.midnight_startsSecond {d : Date} {n : Int} (h : d.dayNumber = n) :
    (Instant.midnight d).StartsSecond (86400 * n) where
  date := by
    rw [Int.mul_ediv_cancel_left n (by decide)]
    exact Date.countsTo_iff.mpr h
  second := (Int.mul_emod_right 86400 n).symm
  nano := rfl

theorem inCalendar_day_iff (n : Int) : InCalendar (86400 * n) ↔ ∃ d : Date, d.dayNumber = n := by
  rw [Date.exists_dayNumber_iff, InCalendar]
  omega

end Calendar

namespace Warehouse

/-! ### What is shown -/

theorem dateJson_day {d : Date} {n : Int} (h : d.dayNumber = n) : dateJson n = .string d.text := by
  rw [dateJson, Date.ofDayNumber?_eq_some_iff.mpr h]

theorem dateJson_bare {n : Int} (h : ¬ ∃ d : Date, d.dayNumber = n) : dateJson n = .int n := by
  have hnone : Date.ofDayNumber? n = none := by
    rw [Option.eq_none_iff_forall_ne_some]
    exact fun d hd => h ⟨d, Date.ofDayNumber?_eq_some_iff.mp hd⟩
  rw [dateJson, hnone]

theorem timestampJson_day {d : Date} {n : Int} (h : d.dayNumber = n) :
    timestampJson .second (86400 * n) = .string (d.text ++ " 00:00:00") := by
  have hin : InCalendar (86400 * n) := (Calendar.inCalendar_day_iff n).mpr ⟨d, h⟩
  have hone : 86400 * n / TimeUnit.second.perSecond = 86400 * n := Int.ediv_one _
  have hunit : TimeUnit.second ≠ .nanosecond := by decide
  have hshown := coarse_in_calendar hunit (86400 * n) (by rwa [hone])
  rw [hone] at hshown
  rw [← d.midnight_text]
  exact hshown.eq ⟨_, d.midnight_startsSecond h, rfl⟩

theorem timestampJson_day_bare {n : Int} (h : ¬ ∃ d : Date, d.dayNumber = n) :
    timestampJson .second (86400 * n) = .int (86400 * n) := by
  rw [← Calendar.inCalendar_day_iff] at h
  have hone : 86400 * n / TimeUnit.second.perSecond = 86400 * n := Int.ediv_one _
  exact coarse_beyond (by decide) (86400 * n) (by rwa [hone])

/-- **A date is shown as the timestamp of its start, without the clock.** It is a text exactly for the days
of the calendar; the text is that of the date so many days after 1970-01-01, counted one by one, and names
its midnight. Beyond the calendar both are the bare numbers. -/
theorem date_agrees_with_timestamp (n : Int) :
    ((∃ s, (Cell.date n).toJson = .string s) ↔ ∃ d, Date.CountsTo n d) ∧
    ((∃ s, (Cell.date n).toJson = .string s) ↔
      ∃ s, (Cell.timestamp .second (86400 * n)).toJson = .string s) ∧
    (∀ s, (Cell.date n).toJson = .string s →
      (Cell.timestamp .second (86400 * n)).toJson = .string (s ++ " 00:00:00") ∧
      ∃ d, Date.CountsTo n d ∧ s = d.text ∧ Instant.ofText? s = some (Instant.midnight d)) ∧
    ((¬ ∃ s, (Cell.date n).toJson = .string s) →
      (Cell.date n).toJson = .int n ∧
      (Cell.timestamp .second (86400 * n)).toJson = .int (86400 * n)) := by
  have hdate : (Cell.date n).toJson = dateJson n := by rw [Cell.toJson]
  have htimestamp : (Cell.timestamp .second (86400 * n)).toJson = timestampJson .second (86400 * n) := by
    rw [Cell.toJson]
  rw [hdate, htimestamp]
  simp only [Date.countsTo_iff]
  by_cases h : ∃ d : Date, d.dayNumber = n
  · obtain ⟨d, hd⟩ := h
    rw [dateJson_day hd, timestampJson_day hd]
    have htext : ∃ s, Json.string d.text = .string s := ⟨_, rfl⟩
    refine ⟨iff_of_true htext ⟨d, hd⟩, iff_of_true htext ⟨_, rfl⟩, fun s hs => ?_, absurd htext⟩
    obtain rfl := Json.string.inj hs
    exact ⟨rfl, d, hd, rfl, d.ofText?_text⟩
  · rw [dateJson_bare h, timestampJson_day_bare h]
    have hbare (k : Int) : ¬ ∃ s, Json.int k = .string s := by
      rintro ⟨s, hs⟩
      cases hs
    exact ⟨iff_of_false (hbare n) h, iff_of_false (hbare n) (hbare _), fun s hs => absurd ⟨s, hs⟩ (hbare n),
      fun _ => ⟨rfl, rfl⟩⟩

/-- The last day in front of the year zero has a text, and the last number of 32 bits is no day. -/
theorem yearZero_eve_agrees :
    (Cell.date (-719529)).toJson = .string "-0001-12-31" ∧
      (Cell.timestamp .second (86400 * -719529)).toJson = .string "-0001-12-31 00:00:00" ∧
      (¬ ∃ s, (Cell.date 2147483647).toJson = .string s) ∧
      (Cell.timestamp .second (86400 * 2147483647)).toJson = .int (86400 * 2147483647) := by
  have htext : (Cell.date (-719529)).toJson = .string "-0001-12-31" := by
    rw [Cell.toJson]
    decide +kernel
  have hbare : ¬ ∃ s, (Cell.date 2147483647).toJson = .string s := by
    have hnumber : (Cell.date 2147483647).toJson = .int 2147483647 := by
      rw [Cell.toJson]
      decide +kernel
    rintro ⟨s, hs⟩
    cases hnumber.symm.trans hs
  exact ⟨htext, ((date_agrees_with_timestamp (-719529)).2.2.1 _ htext).1, hbare,
    ((date_agrees_with_timestamp 2147483647).2.2.2 hbare).2⟩

end Warehouse

end BucketQuery
