import BucketQuery.Proofs.Calendar.DateText
import BucketQuery.Proofs.Calendar.DayNumber

/-! Timestamps with an offset and without.

A timestamp is read in two ways. With an offset behind it its figures have fixed widths, and the instant is
moved to UTC; without one it goes through the looser forms. Both read the same figures as the same instant
(`Stamp.instant`), and the offset moves it by its hours and minutes, which leaves the part of a second as it
is, and a leap second a leap second (`offset_moves_timestamp`). -/
namespace BucketQuery.Calendar

/-! ### Moving an instant -/

namespace Instant

/-- The seconds from the start of 1970 to the second that an instant lies in. A leap second lies in the
second it prolongs. -/
def seconds (t : Instant) : Int := 86400 * t.date.dayNumber + t.second

/-- An instant is known by its second and the time since it started. -/
theorem eq_of_seconds {t u : Instant} (hseconds : t.seconds = u.seconds) (hnano : t.nano = u.nano) : t = u := by
  obtain ⟨date, second, nano, valid⟩ := t
  obtain ⟨date', second', nano', valid'⟩ := u
  have hlt := valid.1
  have hlt' := valid'.1
  simp only [seconds] at hseconds hnano
  obtain rfl : second = second' := by omega
  obtain rfl : date = date' := Date.dayNumber_inj.mp (by omega)
  obtain rfl := hnano
  rfl

/-- Whole minutes do not change the place in the minute, so what was a leap second still is. -/
theorem earlier?_minutes {t : Instant} {k : Int} (hminutes : k % 60 = 0) (hin : InCalendar (t.seconds - k)) :
    ∃ u, t.earlier? k = some u ∧ u.seconds = t.seconds - k ∧ u.nano = t.nano := by
  have hvalid := t.valid
  rw [seconds] at hin ⊢
  obtain ⟨d, hd⟩ := (Date.exists_dayNumber_iff (t.date.dayNumber + (t.second - k) / 86400)).mpr (by
    rw [InCalendar] at hin
    omega)
  have hclock : IsClock ((t.second - k) % 86400).toNat t.nano := by
    rw [IsClock] at hvalid ⊢
    omega
  refine ⟨⟨d, ((t.second - k) % 86400).toNat, t.nano, hclock⟩, ?_, ?_, rfl⟩
  · rw [earlier?, Date.ofDayNumber?_eq_some_iff.mpr hd]
    exact dif_pos hclock
  · show 86400 * d.dayNumber + (((t.second - k) % 86400).toNat : Int) = _
    omega

end Instant

/-! ### What is written -/

/-- The figures of a timestamp: a date whose year has four figures, a clock whose second 60 is the leap
second, and any digits behind the point. -/
structure Stamp where
  date : Date
  hour : Nat
  minute : Nat
  second : Nat
  fraction : List Char
  valid : date.Unsigned ∧ (hour < 24 ∧ minute < 60 ∧ second ≤ 60) ∧ fraction.all Char.isDigit = true

/-- A time zone by its distance from UTC. -/
structure Offset where
  west : Bool
  hours : Fin 24
  minutes : Fin 60

/-- `+HH:MM` or `-HH:MM` -/
def Offset.chars (o : Offset) : List Char :=
  (if o.west then '-' else '+') :: (padded 2 o.hours ++ ':' :: padded 2 o.minutes)

def Offset.text (o : Offset) : String := String.ofList o.chars

/-- Seconds east of UTC. -/
def Offset.seconds (o : Offset) : Int :=
  let seconds : Int := 3600 * (o.hours : Nat) + 60 * (o.minutes : Nat)
  if o.west then -seconds else seconds

/-- Digits behind a point in billionths; those beyond the ninth do not count. -/
def billionths (ds : List Char) : Nat := digitsToNat (ds.take 9) * Nat.pow 10 (9 - (ds.take 9).length)

theorem billionths_lt {ds : List Char} (h : ds.all Char.isDigit = true) : billionths ds < billion := by
  have hall : (ds.take 9).all Char.isDigit = true :=
    List.all_eq_true.mpr fun c hc => List.all_eq_true.mp h c (List.mem_of_mem_take hc)
  have hlength : (ds.take 9).length ≤ 9 := by
    rw [List.length_take]
    omega
  have hvalue : digitsToNat (ds.take 9) < 10 ^ (ds.take 9).length := digitsValue_lt hall
  rw [billionths]
  generalize (ds.take 9).length = k at hlength hvalue ⊢
  calc digitsToNat (ds.take 9) * 10 ^ (9 - k)
      < 10 ^ k * 10 ^ (9 - k) := Nat.mul_lt_mul_of_pos_right hvalue (Nat.pow_pos (by decide))
    _ = 10 ^ 9 := by rw [← Nat.pow_add, Nat.add_sub_cancel' hlength]

namespace Stamp
variable (s : Stamp)

/-- `HH:MM:SS`, with a point and digits if there are any. -/
def clockChars : List Char :=
  padded 2 s.hour ++ ':' :: (padded 2 s.minute ++ ':' :: (padded 2 s.second ++ Double.behindPoint s.fraction))

/-- `YYYY-MM-DDTHH:MM:SS`, with any mark for the `T`. -/
def chars (mark : Char) : List Char := s.date.dayChars ++ mark :: s.clockChars

def text (mark : Char) : String := String.ofList (s.chars mark)

theorem instant_valid : IsClock (3600 * s.hour + 60 * s.minute + min s.second 59)
    ((if s.second = 60 then billion else 0) + billionths s.fraction) := by
  obtain ⟨-, hclock, hdigits⟩ := s.valid
  have hfraction := billionths_lt hdigits
  rw [IsClock]
  split
  · omega
  · omega

/-- The instant that the figures show. -/
def instant : Instant := ⟨s.date, _, _, s.instant_valid⟩

/-! ### The clock -/

theorem ofClock?_eq :
    Instant.ofClock? s.date s.hour s.minute s.second (billionths s.fraction) = some s.instant := by
  obtain ⟨-, hclock, -⟩ := s.valid
  have hvalid := s.instant_valid
  rw [Instant.ofClock?, if_pos ⟨hclock.1, hclock.2.1⟩, instant]
  dsimp only
  by_cases hleap : s.second = 60
  · have hsecond : min s.second 59 = 59 := by omega
    rw [if_pos hleap, hsecond] at hvalid
    rw [if_neg (by omega), if_pos hleap]
    simp only [if_pos hleap, hsecond]
    exact dif_pos hvalid
  · have hsecond : min s.second 59 = s.second := by omega
    rw [if_neg hleap, hsecond, Nat.zero_add] at hvalid
    rw [if_pos (by omega)]
    simp only [if_neg hleap, hsecond, Nat.zero_add]
    exact dif_pos hvalid

end Stamp

/-! ### The part of a second -/

/-- Neither a digit nor a point starts the text. -/
def EndsStamp (cs : List Char) : Prop := Ends cs ∧ ∀ c ∈ cs.head?, c ≠ '.'

theorem endsStamp_nil : EndsStamp [] := ⟨nofun, nofun⟩

theorem endsStamp_cons {c : Char} (hdigit : c.isDigit = false) (hpoint : c ≠ '.') (cs : List Char) :
    EndsStamp (c :: cs) := by
  refine ⟨ends_cons hdigit cs, fun d hd => ?_⟩
  obtain rfl : c = d := Option.some.inj hd
  exact hpoint

theorem pointFraction?_behindPoint {ds rest : List Char} (hds : ds.all Char.isDigit = true)
    (hrest : EndsStamp rest) :
    pointFraction? (Double.behindPoint ds ++ rest) = some (billionths ds, rest) := by
  cases ds with
  | nil =>
    show pointFraction? rest = some (0, rest)
    unfold pointFraction?
    split
    · rename_i cs
      exact absurd rfl (hrest.2 '.' rfl)
    · rfl
  | cons d ds =>
    have hspan : (d :: ds ++ rest).span Char.isDigit = (d :: ds, rest) :=
      Double.spanDigits_append rest hds (by
        cases rest with
        | nil => rfl
        | cons c cs => simpa using hrest.1 c rfl)
    have hpoint : Double.behindPoint (d :: ds) = '.' :: d :: ds := Double.behindPoint_eq (Nat.zero_lt_succ _)
    rw [hpoint, List.cons_append, pointFraction?, fraction?, hspan]
    rfl

/-! ### Behind the figures -/

/-- The rest of a timestamp: an offset, and nothing else. -/
structure Ending (cs : List Char) (east : Int) : Prop where
  offset : offset? cs = some (east, [])
  ends : EndsStamp cs
  last : ∃ ds c, cs = ds ++ [c] ∧ Text.isBlank c = false

theorem zulu_ending {c : Char} (h : c ∈ ['Z', 'z']) : Ending [c] 0 := by
  simp only [List.mem_cons, List.not_mem_nil, or_false] at h
  rcases h with rfl | rfl
  · exact ⟨rfl, endsStamp_cons (by decide) (by decide) [], [], 'Z', rfl, by decide⟩
  · exact ⟨rfl, endsStamp_cons (by decide) (by decide) [], [], 'z', rfl, by decide⟩

namespace Offset
variable (o : Offset)

theorem offset?_chars : offset? o.chars = some (o.seconds, []) := by
  have hhours : o.hours.val < 10 ^ 2 := Nat.lt_trans o.hours.isLt (by decide)
  have hminutes : o.minutes.val < 10 ^ 2 := Nat.lt_trans o.minutes.isLt (by decide)
  have hend := exactly?_padded (show 0 < 2 by decide) hminutes []
  rw [List.append_nil] at hend
  have hbounds : o.hours.val < 24 ∧ o.minutes.val < 60 := ⟨o.hours.isLt, o.minutes.isLt⟩
  unfold chars seconds
  cases o.west with
  | false =>
    refine (Instant.bind_of_some rfl).trans ?_
    refine (Instant.bind_of_some (exactly?_padded (by decide) hhours _)).trans ?_
    refine (Instant.bind_of_some (char?_self _ _)).trans ?_
    refine (Instant.bind_of_some hend).trans ?_
    exact if_pos hbounds
  | true =>
    refine (Instant.bind_of_some rfl).trans ?_
    refine (Instant.bind_of_some (exactly?_padded (by decide) hhours _)).trans ?_
    refine (Instant.bind_of_some (char?_self _ _)).trans ?_
    refine (Instant.bind_of_some hend).trans ?_
    exact if_pos hbounds

theorem ending : Ending o.chars o.seconds where
  offset := o.offset?_chars
  ends := by
    unfold chars
    cases o.west
    · exact ⟨ends_cons (by decide) _, by rintro _ ⟨⟩; decide⟩
    · exact ⟨ends_cons (by decide) _, by rintro _ ⟨⟩; decide⟩
  last := by
    obtain ⟨ds, d, hds, hd⟩ := padded_eq_concat (show 0 < 2 by decide) o.minutes.val
    refine ⟨(if o.west then '-' else '+') :: (padded 2 o.hours ++ ':' :: ds), d, ?_, Text.not_blank_of_digit hd⟩
    rw [chars, hds]
    simp only [List.cons_append, List.append_assoc]

theorem seconds_bounds : o.seconds % 60 = 0 ∧ -86400 < o.seconds ∧ o.seconds < 86400 := by
  have hhours := o.hours.isLt
  have hminutes := o.minutes.isLt
  unfold seconds
  dsimp only
  split
  · omega
  · omega

end Offset

namespace Stamp
variable (s : Stamp)

/-! ### With an offset -/

/-- The figures have their fixed widths, so it depends on the rest whether this is a timestamp. -/
theorem withOffset?_chars {mark : Char} (hmark : mark ∈ ['T', 't', ' ']) {cs : List Char} (h : EndsStamp cs) :
    withOffset? (s.chars mark ++ cs) =
      (offset? cs).bind fun (east, rest) => if rest.isEmpty then s.instant.earlier? east else none := by
  obtain ⟨hyear, ⟨hhour, hminute, hsecond⟩, hdigits⟩ := s.valid
  obtain ⟨htext, hfits⟩ := yearText_unsigned hyear
  have hdate : Date.of? s.date.year.toNat s.date.month s.date.day = some s.date := by
    rw [Int.toNat_of_nonneg hyear.1]
    exact dif_pos s.date.valid
  have hclock := s.ofClock?_eq
  simp only [chars, clockChars, Date.dayChars, Date.monthChars, List.append_assoc, List.cons_append]
  rw [htext, withOffset?]
  refine (Instant.bind_of_some (exactly?_padded (by decide) hfits _)).trans ?_
  refine (Instant.bind_of_some (char?_self _ _)).trans ?_
  refine (Instant.bind_of_some (exactly?_padded (by decide) s.date.month_lt _)).trans ?_
  refine (Instant.bind_of_some (char?_self _ _)).trans ?_
  refine (Instant.bind_of_some (exactly?_padded (by decide) s.date.day_lt _)).trans ?_
  -- Whichever mark it is, the clock behind it is read alike.
  simp only [List.mem_cons, List.not_mem_nil, or_false] at hmark
  rcases hmark with rfl | rfl | rfl
  all_goals
    refine (Instant.bind_of_some rfl).trans ?_
    refine (Instant.bind_of_some (exactly?_padded (by decide) (by omega) _)).trans ?_
    refine (Instant.bind_of_some (char?_self _ _)).trans ?_
    refine (Instant.bind_of_some (exactly?_padded (by decide) (by omega) _)).trans ?_
    refine (Instant.bind_of_some (char?_self _ _)).trans ?_
    refine (Instant.bind_of_some (exactly?_padded (by decide) (by omega) _)).trans ?_
    refine (Instant.bind_of_some (pointFraction?_behindPoint hdigits h)).trans ?_
    simp only [hdate, Option.bind_eq_bind, Option.bind_some, hclock]

/-! ### Without an offset -/

/-- The figures as the looser forms read them, but for the part of a second. -/
def figures (nano : Nat) : Figures :=
  ⟨s.date.year, s.date.month, s.date.day, s.hour, s.minute, s.second, nano⟩

theorem read?_clock (parts : List Part) (rest : List Char) :
    s.date.figures.read? (Form.seconds ++ parts)
      (padded 2 s.hour ++ ':' :: (padded 2 s.minute ++ ':' :: (padded 2 s.second ++ rest))) =
      (s.figures 0).read? parts rest := by
  obtain ⟨-, ⟨hhour, hminute, hsecond⟩, -⟩ := s.valid
  simp only [Form.seconds, Form.minutes, List.cons_append, List.nil_append]
  rw [read?_figure _ _ (by rintro ⟨⟩) (by omega), read?_mark, read?_figure _ _ (by rintro ⟨⟩) (by omega),
    read?_mark, read?_figure _ _ (by rintro ⟨⟩) (by omega)]
  rfl

/-- A form with a `T` reads the figures up to the second. -/
theorem read?_chars (parts : List Part) :
    ({} : Figures).read? (Form.date ++ .mark 'T' :: (Form.seconds ++ parts)) (s.chars 'T') =
      (s.figures 0).read? parts (Double.behindPoint s.fraction) := by
  rw [chars, read?_date, read?_mark, clockChars, read?_clock]

/-- The form with a blank space wants a clock where the `T` stands. -/
theorem read?_chars_space (parts : List Part) :
    ({} : Figures).read? (Form.date ++ .space :: .figure .hour :: parts) (s.chars 'T') = none := by
  have htrim : Text.trimStart ('T' :: s.clockChars) = 'T' :: s.clockChars := Text.trimStart_cons (by decide) _
  rw [chars, read?_date, Figures.read?, htrim, Figures.read?, htrim]
  · rfl
  · rintro ⟨⟩

theorem instant?_figures : (s.figures (billionths s.fraction)).instant? = some s.instant := by
  have hdate : Date.of? s.date.year s.date.month s.date.day = some s.date := dif_pos s.date.valid
  rw [Figures.instant?, figures, hdate]
  exact s.ofClock?_eq

/-- The part of a second is read where the form has a place for it. -/
theorem read?_fraction :
    ({} : Figures).read? (Form.date ++ .mark 'T' :: (Form.seconds ++ [.fraction])) (s.chars 'T') =
      some (s.figures (billionths s.fraction)) := by
  have hpoint := pointFraction?_behindPoint s.valid.2.2 endsStamp_nil
  rw [List.append_nil] at hpoint
  rw [read?_chars, Figures.read?, hpoint]
  rfl

/-- Without such a place there may be no part of a second. -/
theorem read?_whole :
    ({} : Figures).read? (Form.date ++ .mark 'T' :: Form.seconds) (s.chars 'T') =
      if s.fraction.isEmpty then some (s.figures (billionths s.fraction)) else none := by
  have hread := s.read?_chars []
  rw [List.append_nil] at hread
  rw [hread, Figures.read?, Double.behindPoint]
  cases s.fraction with
  | nil => rfl
  | cons d ds => rfl

/-- Whether there is a part of a second or not, one of the forms with a `T` reads it all. -/
theorem withoutOffset?_chars : withoutOffset? (s.chars 'T') = some s.instant := by
  have hspace : ({} : Figures).read? (Form.date ++ .space :: Form.seconds) (s.chars 'T') = none :=
    s.read?_chars_space _
  rw [withoutOffset?, Form.all, List.findSome?_cons, List.findSome?_cons, List.findSome?_cons, hspace,
    s.read?_whole, s.read?_fraction]
  cases s.fraction.isEmpty with
  | true =>
    rw [if_pos rfl, Option.bind_none, Option.bind_some, instant?_figures]
  | false =>
    rw [if_neg Bool.false_ne_true, Option.bind_none, Option.bind_some, instant?_figures]

/-! ### The text -/

theorem chars_start (mark : Char) : ∃ c rest, s.chars mark = c :: rest ∧ Text.isBlank c = false := by
  obtain ⟨c, cs, hday, hc⟩ := dayChars_start s.date
  exact ⟨c, cs ++ mark :: s.clockChars, by rw [chars, hday, List.cons_append], hc⟩

/-- The last character is a digit of the second or of the part of it. -/
theorem chars_end (mark : Char) : ∃ front d, s.chars mark = front ++ [d] ∧ Text.isBlank d = false := by
  obtain ⟨ds, d, hsecond, hd⟩ := padded_eq_concat (show 0 < 2 by decide) s.second
  have hdigits := s.valid.2.2
  unfold chars clockChars
  rcases List.eq_nil_or_concat' s.fraction with hnil | ⟨fs, f, hfraction⟩
  · refine ⟨s.date.dayChars ++ mark :: (padded 2 s.hour ++ ':' :: (padded 2 s.minute ++ ':' :: ds)), d, ?_,
      Text.not_blank_of_digit hd⟩
    rw [hnil, hsecond, Double.behindPoint, List.isEmpty_nil, if_pos rfl]
    simp only [List.cons_append, List.append_assoc, List.append_nil]
  · have hpoint : Double.behindPoint s.fraction = '.' :: (fs ++ [f]) := by
      rw [← hfraction, Double.behindPoint_eq]
      rw [hfraction, List.length_append]
      exact Nat.zero_lt_succ _
    rw [hfraction, List.all_append, Bool.and_eq_true, List.all_cons, Bool.and_eq_true] at hdigits
    refine ⟨s.date.dayChars ++ mark :: (padded 2 s.hour ++ ':' :: (padded 2 s.minute ++ ':' ::
      (padded 2 s.second ++ '.' :: fs))), f, ?_, Text.not_blank_of_digit hdigits.2.1⟩
    rw [hpoint]
    simp only [List.cons_append, List.append_assoc]

theorem ofText?_text : Instant.ofText? (s.text 'T') = some s.instant := by
  have hmark : 'T' ∈ ['T', 't', ' '] := by decide
  have hbare : withOffset? (s.chars 'T') = none := by
    have h := s.withOffset?_chars hmark endsStamp_nil
    rwa [List.append_nil] at h
  rw [Instant.ofText?, text, Text.trim_of_ends (s.chars_start 'T') (s.chars_end 'T'), String.toList_ofList, hbare, Option.none_or,
    withoutOffset?_chars]

/-- With an offset behind it a timestamp is the instant moved to UTC. -/
theorem ofText?_ending {mark : Char} (hmark : mark ∈ ['T', 't', ' ']) {cs : List Char} {east : Int}
    (h : Ending cs east) {u : Instant} (hu : s.instant.earlier? east = some u) :
    Instant.ofText? (s.text mark ++ String.ofList cs) = some u := by
  obtain ⟨c, rest, hstart, hc⟩ := s.chars_start mark
  obtain ⟨front, d, hend, hd⟩ := h.last
  have htrim : Text.trim (String.ofList (s.chars mark ++ cs)) = String.ofList (s.chars mark ++ cs) := by
    refine Text.trim_of_ends ⟨c, rest ++ cs, ?_, hc⟩ ⟨s.chars mark ++ front, d, ?_, hd⟩
    · rw [hstart, List.cons_append]
    · rw [hend, List.append_assoc]
  have hread : withOffset? (s.chars mark ++ cs) = some u := by
    rw [s.withOffset?_chars hmark h.ends, h.offset]
    exact hu
  rw [text, ← String.ofList_append, Instant.ofText?, htrim, String.toList_ofList, hread, Option.some_or]

/-- A day around a year of four figures is in the calendar. -/
theorem inCalendar_near {k : Int} (h : -86400 < k ∧ k < 86400) : InCalendar (s.instant.seconds - k) := by
  have hyear := s.valid.1
  have hday := Date.dayNumber_in_year s.date
  have hfirst := Date.daysBeforeYear_mono hyear.1
  have hlast := Date.daysBeforeYear_mono (Int.add_le_add_right hyear.2 1)
  have hzero : Date.daysBeforeYear 0 = -366 := by decide
  have hten : Date.daysBeforeYear (9999 + 1) = 3652059 := by decide
  have hsecond := s.instant.valid.1
  have hseconds : s.instant.seconds = 86400 * s.date.dayNumber + s.instant.second := rfl
  rw [Date.epochDay] at hday
  rw [inCalendar_iff, hseconds]
  omega

end Stamp

/-- **An offset moves a timestamp by its hours and minutes.** Without one and with a `Z` a timestamp is the
instant its figures show; with an offset it is the instant so much earlier, or later to the west, at the same
time within the second. A blank space and a small `t` do for the `T`. -/
theorem offset_moves_timestamp (s : Stamp) :
    Instant.ofText? (s.text 'T') = some s.instant ∧
    (∀ mark ∈ ['T', 't', ' '],
      Instant.ofText? (s.text mark ++ "Z") = Instant.ofText? (s.text 'T') ∧
      Instant.ofText? (s.text mark ++ "z") = Instant.ofText? (s.text 'T')) ∧
    ∀ o : Offset, ∃ u : Instant, u.seconds = s.instant.seconds - o.seconds ∧ u.nano = s.instant.nano ∧
      ∀ mark ∈ ['T', 't', ' '], Instant.ofText? (s.text mark ++ o.text) = some u := by
  have hbare := s.ofText?_text
  have hzulu : s.instant.earlier? 0 = some s.instant := by
    obtain ⟨u, hu, hseconds, hnano⟩ := Instant.earlier?_minutes rfl (s.inCalendar_near (k := 0) (by decide))
    rw [Int.sub_zero] at hseconds
    rw [hu, Instant.eq_of_seconds hseconds hnano]
  refine ⟨hbare, fun mark hmark => ?_, fun o => ?_⟩
  · rw [hbare]
    exact ⟨s.ofText?_ending hmark (zulu_ending (by decide)) hzulu,
      s.ofText?_ending hmark (zulu_ending (by decide)) hzulu⟩
  · obtain ⟨hminutes, hday⟩ := o.seconds_bounds
    obtain ⟨u, hu, hseconds, hnano⟩ := Instant.earlier?_minutes hminutes (s.inCalendar_near hday)
    exact ⟨u, hseconds, hnano, fun mark hmark => s.ofText?_ending hmark o.ending hu⟩

/-- A leap second in the first minute of the year zero, by a clock almost a day ahead of UTC, is still a leap
second in the year before. -/
theorem yearZero_leapSecond_moves :
    let s : Stamp := ⟨⟨0, 1, 1, by decide⟩, 0, 0, 60, ['5'], by decide⟩
    let eve : Instant := ⟨⟨-1, 12, 31, by decide⟩, 119, 1500000000, by decide⟩
    ' ' ∈ ['T', 't', ' '] ∧ Instant.ofText? "0000-01-01 00:00:60.5Z" = some s.instant ∧
      Instant.ofText? "0000-01-01 00:00:60.5+23:59" = some eve := by
  intro s eve
  have hmark : ' ' ∈ ['T', 't', ' '] := by decide
  have hends : s.text ' ' ++ "Z" = "0000-01-01 00:00:60.5Z" ∧
      s.text ' ' ++ Offset.text ⟨false, 23, 59⟩ = "0000-01-01 00:00:60.5+23:59" := by decide +kernel
  obtain ⟨hbare, hzulu, hoffset⟩ := offset_moves_timestamp s
  obtain ⟨u, hseconds, hnano, hread⟩ := hoffset ⟨false, 23, 59⟩
  obtain rfl : u = eve := Instant.eq_of_seconds (hseconds.trans (by decide +kernel)) (hnano.trans (by decide +kernel))
  rw [← hends.1, ← hends.2]
  exact ⟨hmark, (hzulu ' ' hmark).1.trans hbare, hread ' ' hmark⟩

end BucketQuery.Calendar
