import BucketQuery.Proofs.Calendar.DayNumber
import BucketQuery.Proofs.Calendar.Reading
import BucketQuery.Warehouse.Cell

/-! Timestamps show the second they belong to.

A timestamp counts units from the start of 1970, and its second is the whole number of seconds in it,
rounded to the past. In units of seconds, thousandths and millionths it is shown as that second wherever the
calendar reaches, and as the bare number beyond; microseconds that do not fit 64 bits are far beyond, so
nothing is lost by keeping them at the nearest that fits (`saturate_or_beyond`). Main statement,
`coarse_shows_second`.

Nanoseconds are cut off to microseconds towards 1970 first. From 1970 on that is the past, and before it the
future: an instant less than a microsecond in front of a second, and not at a whole one, is shown as that
second, and every other instant as its own (`nanosecond_shows_iff`). -/
namespace BucketQuery

open Calendar (InCalendar Instant)

/-- Shown as the text of an instant at which a second starts. -/
def Json.ShowsSecond (j : Json) (seconds : Int) : Prop :=
  ∃ t : Instant, t.StartsSecond seconds ∧ j = .string t.text

/-- A text shows one second at most. -/
theorem Json.ShowsSecond.unique {j : Json} {s s' : Int} (h : j.ShowsSecond s) (h' : j.ShowsSecond s') :
    s = s' := by
  obtain ⟨t, ht, rfl⟩ := h
  obtain ⟨t', ht', heq⟩ := h'
  have hread : Instant.ofText? t.text = Instant.ofText? t'.text := congrArg _ (Json.string.inj heq)
  rw [Instant.ofText?_text, Instant.ofText?_text, Option.some.injEq, ht.wholeSecond_eq, ht'.wholeSecond_eq]
    at hread
  exact ht.unique (hread ▸ ht')

/-- One second has one text. -/
theorem Json.ShowsSecond.eq {j j' : Json} {s : Int} (h : j.ShowsSecond s) (h' : j'.ShowsSecond s) : j = j' := by
  obtain ⟨t, ht, rfl⟩ := h
  obtain ⟨t', ht', rfl⟩ := h'
  rw [Option.some.inj ((Instant.ofUnix?_eq_some_iff.mpr ht).symm.trans (Instant.ofUnix?_eq_some_iff.mpr ht'))]

namespace Warehouse

/-- How many of a unit a second has. -/
def TimeUnit.perSecond : TimeUnit → Int
  | .second => 1
  | .millisecond => 1000
  | .microsecond => 1000000
  | .nanosecond => 1000000000

/-- A whole number of 64 bits. -/
def IsWord (v : Int) : Prop := -0x8000000000000000 ≤ v ∧ v ≤ 0x7fffffffffffffff

instance (v : Int) : Decidable (IsWord v) := inferInstanceAs (Decidable (_ ∧ _))

/-! ### What is shown -/

section Shown
variable {unit : TimeUnit} {v seconds : Int}

theorem timestampJson_shows (h : InCalendar seconds) (hseconds : microseconds v unit / 1000000 = seconds) :
    (timestampJson unit v).ShowsSecond seconds := by
  obtain ⟨t, ht⟩ := Instant.exists_startsSecond_iff.mpr h
  have hunix := Instant.ofUnix?_eq_some_iff.mpr ht
  refine ⟨t, ht, ?_⟩
  unfold timestampJson
  rw [hseconds, hunix]

theorem timestampJson_bare (h : ¬ InCalendar (microseconds v unit / 1000000)) :
    timestampJson unit v = .int v := by
  have hunix := Instant.ofUnix?_eq_none h
  unfold timestampJson
  rw [hunix]

end Shown

/-! ### Units of a microsecond and more -/

/-- Where microseconds do not fit 64 bits, they are beyond the calendar, and so is the nearest that fits. -/
theorem saturate_or_beyond (micros : Int) :
    saturate micros = micros ∨
      ¬ InCalendar (saturate micros / 1000000) ∧ ¬ InCalendar (micros / 1000000) := by
  rw [Calendar.inCalendar_iff, Calendar.inCalendar_iff, saturate]
  omega

section Coarse
variable {unit : TimeUnit} (hunit : unit ≠ .nanosecond) (v : Int)
include hunit

/-- The microseconds of a timestamp are its own, or it is beyond the calendar and stays there. -/
theorem microseconds_div :
    microseconds v unit / 1000000 = v / unit.perSecond ∨
      ¬ InCalendar (microseconds v unit / 1000000) ∧ ¬ InCalendar (v / unit.perSecond) := by
  cases unit with
  | second =>
    have h := saturate_or_beyond (v * 1000000)
    rw [Int.mul_ediv_cancel _ (by decide)] at h
    refine h.imp (fun heq => ?_) fun hbeyond => ⟨hbeyond.1, ?_⟩
    · rw [microseconds, heq, TimeUnit.perSecond, Int.mul_ediv_cancel _ (by decide), Int.ediv_one]
    · rw [TimeUnit.perSecond, Int.ediv_one]
      exact hbeyond.2
  | millisecond =>
    have hthousand : v * 1000 / 1000000 = v / 1000 := by omega
    have h := saturate_or_beyond (v * 1000)
    rw [hthousand] at h
    refine h.imp_left fun heq => ?_
    rw [microseconds, heq, hthousand]
    rfl
  | microsecond => exact .inl rfl
  | nanosecond => exact absurd rfl hunit

theorem coarse_in_calendar (h : InCalendar (v / unit.perSecond)) :
    (timestampJson unit v).ShowsSecond (v / unit.perSecond) :=
  timestampJson_shows h ((microseconds_div hunit v).resolve_right fun hbeyond => hbeyond.2 h)

theorem coarse_beyond (h : ¬ InCalendar (v / unit.perSecond)) : timestampJson unit v = .int v := by
  apply timestampJson_bare
  rcases microseconds_div hunit v with heq | hbeyond
  · rwa [heq]
  · exact hbeyond.1

theorem saturated_beyond (h : microseconds v unit ≠ v * (1000000 / unit.perSecond)) :
    timestampJson unit v = .int v := by
  apply timestampJson_bare
  cases unit with
  | second => exact ((saturate_or_beyond (v * 1000000)).resolve_left h).1
  | millisecond => exact ((saturate_or_beyond (v * 1000)).resolve_left h).1
  | microsecond => exact absurd (Int.mul_one v).symm h
  | nanosecond => exact absurd rfl hunit

end Coarse

theorem seconds_eq_of_same_instant {unit other : TimeUnit} {v w : Int}
    (h : v * other.perSecond = w * unit.perSecond) : v / unit.perSecond = w / other.perSecond := by
  cases unit <;> cases other <;> simp only [TimeUnit.perSecond] at h ⊢ <;> omega

/-- **Timestamps in units of a microsecond and more are exact.** Where the calendar reaches, the second that
the instant lies in is shown, rounded to the past, and beyond it the bare number; so it is wherever the
microseconds of the instant are not those that fit 64 bits. Instants that are equal are shown with equal
texts, whatever their units. -/
theorem coarse_shows_second {unit : TimeUnit} (hunit : unit ≠ .nanosecond) (v : Int) :
    (InCalendar (v / unit.perSecond) → (timestampJson unit v).ShowsSecond (v / unit.perSecond)) ∧
    (¬ InCalendar (v / unit.perSecond) → timestampJson unit v = .int v) ∧
    (microseconds v unit ≠ v * (1000000 / unit.perSecond) → timestampJson unit v = .int v) ∧
    ∀ other : TimeUnit, other ≠ .nanosecond → ∀ w, v * other.perSecond = w * unit.perSecond →
      ∀ s, timestampJson unit v = .string s → timestampJson other w = .string s := by
  refine ⟨coarse_in_calendar hunit v, coarse_beyond hunit v, saturated_beyond hunit v, ?_⟩
  intro other hother w hsame s hs
  have hin : InCalendar (v / unit.perSecond) := by
    refine Decidable.byContradiction fun hbeyond => ?_
    rw [coarse_beyond hunit v hbeyond] at hs
    cases hs
  have hseconds := seconds_eq_of_same_instant hsame
  have hshown := coarse_in_calendar hother w (hseconds ▸ hin)
  rw [← hs]
  exact hshown.eq (hseconds ▸ coarse_in_calendar hunit v hin)

/-- A thousandth of a second ahead of 1970 is in the last second of 1969, and a number of seconds whose
microseconds do not fit is shown as it is. -/
theorem eve_shows_second :
    TimeUnit.millisecond ≠ .nanosecond ∧ TimeUnit.second ≠ .nanosecond ∧
    (timestampJson .millisecond (-1)).ShowsSecond (-1) ∧
    microseconds 9223372036855 .second ≠ 9223372036855 * (1000000 / TimeUnit.second.perSecond) ∧
    timestampJson .second 9223372036855 = .int 9223372036855 ∧
    timestampJson .second (-1) = .string "1969-12-31 23:59:59" ∧
    timestampJson .millisecond (-1000) = .string "1969-12-31 23:59:59" := by
  have hsecond : TimeUnit.second ≠ .nanosecond := by decide
  have hmilli : TimeUnit.millisecond ≠ .nanosecond := by decide
  have hsaturated :
      microseconds 9223372036855 .second ≠ 9223372036855 * (1000000 / TimeUnit.second.perSecond) := by decide
  have heve : timestampJson .second (-1) = .string "1969-12-31 23:59:59" := by decide +kernel
  refine ⟨hmilli, hsecond, (coarse_shows_second hmilli (-1)).1 (by decide), hsaturated,
    (coarse_shows_second hsecond 9223372036855).2.2.1 hsaturated, heve, ?_⟩
  exact (coarse_shows_second hsecond (-1)).2.2.2 .millisecond hmilli (-1000) (by decide) _ heve

/-! ### Nanoseconds -/

/-- Cutting off to microseconds towards 1970 does not leave the second: from 1970 on it never does, and before
only from within its last microsecond. -/
def KeepsSecond (nanos : Int) : Prop := 0 ≤ nanos ∨ nanos % 1000000000 ≤ 999999000

instance (nanos : Int) : Decidable (KeepsSecond nanos) := inferInstanceAs (Decidable (_ ∨ _))

theorem nanosecond_div (v : Int) :
    microseconds v .nanosecond / 1000000 =
      if KeepsSecond v then v / 1000000000 else v / 1000000000 + 1 := by
  have hsign : Int.sign 1000 = 1 := rfl
  rw [microseconds, Int.tdiv_eq_ediv, hsign]
  by_cases h : KeepsSecond v
  · rw [if_pos h]
    rw [KeepsSecond] at h
    split_ifs <;> omega
  · rw [if_neg h]
    rw [KeepsSecond] at h
    split_ifs <;> omega

/-- Nanoseconds of 64 bits are within the calendar. -/
theorem nanosecond_shows {v : Int} (h : IsWord v) :
    (timestampJson .nanosecond v).ShowsSecond
      (if KeepsSecond v then v / 1000000000 else v / 1000000000 + 1) := by
  refine timestampJson_shows ?_ (nanosecond_div v)
  rw [Calendar.inCalendar_iff]
  rw [IsWord] at h
  split_ifs <;> omega

/-- **Nanoseconds show their own second or the next one.** It is their own exactly if cutting off to
microseconds does not leave it. -/
theorem nanosecond_shows_iff {v : Int} (h : IsWord v) :
    ((timestampJson .nanosecond v).ShowsSecond (v / TimeUnit.nanosecond.perSecond) ↔ KeepsSecond v) ∧
    (¬ KeepsSecond v →
      (timestampJson .nanosecond v).ShowsSecond (v / TimeUnit.nanosecond.perSecond + 1)) := by
  have hshown := nanosecond_shows h
  rw [TimeUnit.perSecond]
  by_cases hkeeps : KeepsSecond v
  · rw [if_pos hkeeps] at hshown
    exact ⟨iff_of_true hshown hkeeps, absurd hkeeps⟩
  · rw [if_neg hkeeps] at hshown
    refine ⟨iff_of_false (fun hown => ?_) hkeeps, fun _ => hshown⟩
    have hsame := hown.unique hshown
    omega

/-- A microsecond and a half ahead of 1970 still belongs to 1969, and half a microsecond does not. -/
theorem microsecond_shows_eve :
    IsWord (-1500) ∧ IsWord (-500) ∧ (timestampJson .nanosecond (-1500)).ShowsSecond (-1) ∧
      (timestampJson .nanosecond (-500)).ShowsSecond 0 := by
  have hearly : IsWord (-1500) := by decide
  have hlate : IsWord (-500) := by decide
  exact ⟨hearly, hlate, (nanosecond_shows_iff hearly).1.mpr (by decide),
    (nanosecond_shows_iff hlate).2 (by decide)⟩

/-- The last nanosecond of 1969 is shown as the first second of 1970. -/
theorem last_nanosecond_late :
    timestampJson .nanosecond (-1) = .string "1970-01-01 00:00:00" ∧
      ¬ (timestampJson .nanosecond (-1)).ShowsSecond (-1 / TimeUnit.nanosecond.perSecond) ∧
      (timestampJson .second (-1)).ShowsSecond (-1 / TimeUnit.nanosecond.perSecond) := by
  have hshown : (timestampJson .nanosecond (-1)).ShowsSecond 0 := nanosecond_shows (v := -1) (by decide)
  refine ⟨by decide +kernel, fun hown => ?_, coarse_in_calendar (by decide) (-1) (by decide)⟩
  exact absurd (hown.unique hshown) (by decide)

end Warehouse

end BucketQuery
