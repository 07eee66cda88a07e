import BucketQuery.Proofs.Calendar.Reading

/-! The text of a date reads back.

A date names the midnight it starts with. Of the forms a text is tried in, all but the last go on behind
the day, where the text of a date is over (`Date.ofText?_text`). That holds of any year the calendar has,
with a sign or without. -/
namespace BucketQuery.Calendar

/-! ### The day in front of a form -/

/-- The figures of a date, at its midnight. -/
def Date.figures (d : Date) : Figures := ⟨d.year, d.month, d.day, 0, 0, 0, 0⟩

/-- Every form starts with the figures of a date, and they are read for what they are. -/
theorem read?_date (d : Date) (parts : List Part) (rest : List Char) :
    ({} : Figures).read? (Form.date ++ parts) (d.dayChars ++ rest) = d.figures.read? parts rest := by
  simp only [Form.date, List.cons_append, List.nil_append, Date.dayChars, Date.monthChars, List.append_assoc]
  rw [read?_year _ _ _ (ends_cons (by decide) _), read?_mark, read?_figure _ _ (by rintro ⟨⟩) d.month_lt,
    read?_mark, read?_figure _ _ (by rintro ⟨⟩) d.day_lt]
  rfl

section Ended
variable (fs : Figures) (parts : List Part)

theorem read?_mark_nil (c : Char) : fs.read? (.mark c :: parts) [] = none := by
  rw [Figures.read?]
  rfl

theorem read?_space_hour_nil : fs.read? (.space :: .figure .hour :: parts) [] = none := by
  rw [Figures.read?, Figures.read?]
  · rfl
  · rintro ⟨⟩

end Ended

/-! ### Timestamps -/

/-- A year without a sign has the width a timestamp wants. -/
theorem yearText_unsigned {d : Date} (h : d.Unsigned) :
    yearText d.year = padded 4 d.year.toNat ∧ d.year.toNat < 10 ^ 4 := by
  refine ⟨if_pos h, ?_⟩
  have := h.2
  omega

/-- A timestamp has a year of four figures and no sign. -/
theorem withOffset?_signed {d : Date} (h : ¬ d.Unsigned) (rest : List Char) :
    withOffset? (d.dayChars ++ rest) = none := by
  have hyear : yearText d.year = (if d.year < 0 then '-' else '+') :: padded 4 d.year.natAbs := if_neg h
  simp only [Date.dayChars, Date.monthChars, List.append_assoc]
  rw [hyear, withOffset?, List.cons_append, exactly?_none]
  · rfl
  · split <;> decide

namespace Date

/-- A timestamp goes on behind the day. -/
theorem withOffset?_dayChars (d : Date) : withOffset? d.dayChars = none := by
  by_cases hyear : d.Unsigned
  · obtain ⟨htext, hfits⟩ := yearText_unsigned hyear
    have hday := exactly?_padded (show 0 < 2 by decide) d.day_lt []
    rw [List.append_nil] at hday
    simp only [dayChars, monthChars, List.append_assoc, List.cons_append]
    rw [htext, withOffset?]
    refine (Instant.bind_of_some (exactly?_padded (by decide) hfits _)).trans ?_
    refine (Instant.bind_of_some (char?_self _ _)).trans ?_
    refine (Instant.bind_of_some (exactly?_padded (by decide) d.month_lt _)).trans ?_
    refine (Instant.bind_of_some (char?_self _ _)).trans ?_
    exact Instant.bind_of_some hday
  · rw [← List.append_nil d.dayChars]
    exact withOffset?_signed hyear []

/-! ### Dates -/

/-- The text of a date has no blank space around it. -/
theorem trim_text (d : Date) : Text.trim d.text = d.text := by
  obtain ⟨ds, e, hday, he⟩ := padded_eq_concat (show 0 < 2 by decide) d.day
  refine Text.trim_of_ends (dayChars_start d) ⟨d.monthChars ++ '-' :: ds, e, ?_, Text.not_blank_of_digit he⟩
  simp only [dayChars, hday, List.cons_append, List.append_assoc]

theorem instant?_figures (d : Date) : d.figures.instant? = some (Instant.midnight d) := by
  have hdate : Date.of? d.year d.month d.day = some d := dif_pos d.valid
  rw [Figures.instant?, figures, hdate]
  rfl

/-- Of all forms, the text of a date has the last one only. -/
theorem withoutOffset?_dayChars (d : Date) : withoutOffset? d.dayChars = some (Instant.midnight d) := by
  have hread (parts : List Part) :
      ({} : Figures).read? (Form.date ++ parts) d.dayChars = d.figures.read? parts [] := by
    have h := read?_date d parts []
    rwa [List.append_nil] at h
  have hbare : ({} : Figures).read? Form.date d.dayChars = some d.figures := by
    have h := hread []
    rwa [List.append_nil] at h
  simp only [withoutOffset?, Form.all, Form.seconds, Form.minutes, List.cons_append, List.findSome?_cons, hread,
    hbare, read?_mark_nil, read?_space_hour_nil, Option.bind_none, Option.bind_some, instant?_figures]

/-- The text of a date names its midnight. -/
theorem ofText?_text (d : Date) : Instant.ofText? d.text = some (Instant.midnight d) := by
  rw [Instant.ofText?, trim_text, text, String.toList_ofList, withOffset?_dayChars, Option.none_or,
    withoutOffset?_dayChars]

end Date

end BucketQuery.Calendar
