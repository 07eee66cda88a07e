import BucketQuery.Calendar.Reading
import BucketQuery.Proofs.Calendar.Order
import BucketQuery.Proofs.Text.Blank

/-! The text of an instant reads back.

Reading tries one form after the other. The text of an instant is not a timestamp, since no offset ends
it, and it is of the first form without one: each figure is read for what it was written for, whatever
the sign and the length of the year. What comes back is the instant without the part of a second, where
a leap second is still one (`Instant.ofText?_text`). -/
namespace BucketQuery.Calendar

/-! ### Figures -/

/-- No digit starts the text. -/
def Ends (cs : List Char) : Prop := ∀ c ∈ cs.head?, c.isDigit = false

theorem ends_cons {c : Char} (h : c.isDigit = false) (cs : List Char) : Ends (c :: cs) := by
  rintro d hd
  obtain rfl : c = d := Option.some.inj hd
  exact h

/-- Digits are taken up to the limit, or to where they end. -/
theorem takeDigits_append {limit : Nat} {ds rest : List Char} (hds : ds.all Char.isDigit = true)
    (hlimit : ds.length ≤ limit) (hend : ds.length = limit ∨ Ends rest) :
    takeDigits limit (ds ++ rest) = (ds, rest) := by
  induction ds generalizing limit with
  | nil =>
    cases limit with
    | zero => simp only [List.nil_append, takeDigits]
    | succ limit =>
      cases rest with
      | nil => simp only [List.nil_append, takeDigits]
      | cons c cs =>
        have hc : c.isDigit = false := hend.elim (fun h => nomatch h) fun h => h c rfl
        simp only [List.nil_append, takeDigits, hc, Bool.false_eq_true, if_false]
  | cons d ds ih =>
    rw [List.all_cons, Bool.and_eq_true] at hds
    rw [List.length_cons] at hlimit hend
    obtain ⟨limit, rfl⟩ : ∃ k, limit = k + 1 := ⟨limit - 1, by omega⟩
    have hrest : takeDigits limit (ds ++ rest) = (ds, rest) :=
      ih hds.2 (Nat.le_of_succ_le_succ hlimit) (hend.imp_left Nat.succ.inj)
    simp only [List.cons_append, takeDigits, hds.1, if_true, hrest]

theorem digitsToNat_padded (width n : Nat) : digitsToNat (padded width n) = n :=
  digitsValue_padded width n

section Padded
variable {width : Nat} (hpos : 0 < width) (n : Nat)
include hpos

theorem padded_ne_nil : padded width n ≠ [] :=
  List.ne_nil_of_length_pos (Nat.lt_of_lt_of_le hpos (le_length_padded width n))

theorem padded_start : Double.StartsWithDigit (padded width n) :=
  Double.startsWithDigit_of_all (padded_ne_nil hpos n) (padded_all width n)

/-- A padded figure has a last digit. -/
theorem padded_eq_concat : ∃ ds d, padded width n = ds ++ [d] ∧ d.isDigit = true := by
  obtain ⟨ds, d, h⟩ := (List.eq_nil_or_concat' (padded width n)).resolve_left (padded_ne_nil hpos n)
  have hall := padded_all width n
  rw [h, List.all_append, Bool.and_eq_true, List.all_cons, Bool.and_eq_true] at hall
  exact ⟨ds, d, h, hall.2.1⟩

theorem trimStart_padded (rest : List Char) :
    Text.trimStart (padded width n ++ rest) = padded width n ++ rest := by
  obtain ⟨d, ds, h, hd⟩ := padded_start hpos n
  rw [h, List.cons_append, Text.trimStart_cons (Text.not_blank_of_digit hd)]

theorem upTo?_padded {limit : Nat} {rest : List Char} (hlimit : (padded width n).length ≤ limit)
    (hend : (padded width n).length = limit ∨ Ends rest) :
    upTo? limit (padded width n ++ rest) = some (n, rest) := by
  obtain ⟨d, ds, h, -⟩ := padded_start hpos n
  have htake := takeDigits_append (padded_all width n) hlimit hend
  have hvalue := digitsToNat_padded width n
  rw [h] at htake hvalue ⊢
  simp only [upTo?, htake, hvalue]

end Padded

theorem exactly?_padded {width n : Nat} (hpos : 0 < width) (h : n < 10 ^ width) (rest : List Char) :
    exactly? width (padded width n ++ rest) = some (n, rest) := by
  have hlength := length_padded hpos h
  have htake : takeDigits width (padded width n ++ rest) = (padded width n, rest) :=
    takeDigits_append (padded_all width n) (Nat.le_of_eq hlength) (.inl hlength)
  simp only [exactly?, htake, hlength, if_true, digitsToNat_padded]

theorem signedYear?_digit {c : Char} (h : c.isDigit = true) (cs : List Char) :
    signedYear? (c :: cs) = (upTo? 4 (c :: cs)).map fun (n, rest) => ((n : Int), rest) := by
  unfold signedYear?
  split
  · rename_i heq
    cases heq
    exact absurd h (by decide)
  · rename_i heq
    cases heq
    exact absurd h (by decide)
  · rfl

theorem exactly?_none {c : Char} (h : c.isDigit = false) (width : Nat) (cs : List Char) :
    exactly? (width + 1) (c :: cs) = none := by
  simp only [exactly?, takeDigits, h, Bool.false_eq_true, if_false, List.length_nil]
  rw [if_neg (by omega)]

theorem char?_self (c : Char) (cs : List Char) : char? c (c :: cs) = some cs := if_pos rfl

/-- A year is read for what it is, with a sign or without. -/
theorem signedYear?_yearText (year : Int) {rest : List Char} (h : Ends rest) :
    signedYear? (yearText year ++ rest) = some (year, rest) := by
  have hsigned (n : Nat) : upTo? (padded 4 n ++ rest).length (padded 4 n ++ rest) = some (n, rest) :=
    upTo?_padded (by decide) n (by rw [List.length_append]; omega) (.inr h)
  rw [yearText]
  split_ifs with hshort hnegative
  · have hlength : (padded 4 year.toNat).length = 4 := length_padded (by decide) (by omega)
    have hread : upTo? 4 (padded 4 year.toNat ++ rest) = some (year.toNat, rest) :=
      upTo?_padded (by decide) _ (Nat.le_of_eq hlength) (.inl hlength)
    obtain ⟨d, ds, hcons, hd⟩ := padded_start (show 0 < 4 by decide) year.toNat
    rw [hcons, List.cons_append] at hread ⊢
    have hvalue : (year.toNat : Int) = year := Int.toNat_of_nonneg hshort.1
    simp only [signedYear?_digit hd, hread, Option.map_some, hvalue]
  · have hvalue : -(year.natAbs : Int) = year := by omega
    simp only [List.cons_append, signedYear?, hsigned, Option.map_some, hvalue]
  · have hvalue : (year.natAbs : Int) = year := by omega
    simp only [List.cons_append, signedYear?, hsigned, Option.map_some, hvalue]

/-- The text of a year starts with a sign or a digit. -/
theorem yearText_eq_cons (year : Int) :
    ∃ c cs, yearText year = c :: cs ∧ Text.isBlank c = false := by
  rw [yearText]
  split_ifs
  · obtain ⟨d, ds, hcons, hd⟩ := padded_start (show 0 < 4 by decide) year.toNat
    exact ⟨d, ds, hcons, Text.not_blank_of_digit hd⟩
  · exact ⟨'-', _, rfl, by decide⟩
  · exact ⟨'+', _, rfl, by decide⟩

theorem dayChars_start (d : Date) : ∃ c rest, d.dayChars = c :: rest ∧ Text.isBlank c = false := by
  obtain ⟨c, cs, hyear, hc⟩ := yearText_eq_cons d.year
  refine ⟨c, cs ++ '-' :: (padded 2 d.month ++ '-' :: padded 2 d.day), ?_, hc⟩
  simp only [Date.dayChars, Date.monthChars, hyear, List.cons_append, List.append_assoc]

/-! ### Forms -/

section Forms
variable (fs : Figures) (parts : List Part)

theorem read?_year (year : Int) {rest : List Char} (h : Ends rest) :
    fs.read? (.figure .year :: parts) (yearText year ++ rest) =
      Figures.read? {fs with year} parts rest := by
  obtain ⟨c, cs, hcons, hc⟩ := yearText_eq_cons year
  have htrim : Text.trimStart (yearText year ++ rest) = yearText year ++ rest := by
    rw [hcons, List.cons_append, Text.trimStart_cons hc]
  rw [Figures.read?, htrim, signedYear?_yearText year h]
  rfl

theorem read?_figure {f : Figure} (hf : f ≠ .year) {n : Nat} (h : n < 10 ^ 2) (rest : List Char) :
    fs.read? (.figure f :: parts) (padded 2 n ++ rest) = (fs.set n f).read? parts rest := by
  have hlength : (padded 2 n).length = 2 := length_padded (by decide) h
  have hread : upTo? 2 (padded 2 n ++ rest) = some (n, rest) :=
    upTo?_padded (by decide) n (Nat.le_of_eq hlength) (.inl hlength)
  rw [Figures.read?, trimStart_padded (by decide), hread]
  · rfl
  · exact hf

theorem read?_mark (c : Char) (rest : List Char) :
    fs.read? (.mark c :: parts) (c :: rest) = fs.read? parts rest := by
  rw [Figures.read?, char?_self]
  rfl

theorem read?_space (n : Nat) (rest : List Char) :
    fs.read? (.space :: parts) (' ' :: (padded 2 n ++ rest)) = fs.read? parts (padded 2 n ++ rest) := by
  have htrim : Text.trimStart (' ' :: (padded 2 n ++ rest)) = padded 2 n ++ rest :=
    (List.dropWhile_cons_of_pos (by decide)).trans (trimStart_padded (by decide) n rest)
  rw [Figures.read?, htrim]

end Forms

/-! ### Instants -/

namespace Instant

/-- A text of an instant has no blank space around it. -/
theorem trim_text (t : Instant) : Text.trim t.text = t.text := by
  obtain ⟨c, cs, hday, hc⟩ := dayChars_start t.date
  obtain ⟨ds, d, hsecond, hd⟩ := padded_eq_concat (show 0 < 2 by decide) t.secondShown
  refine Text.trim_of_ends ⟨c, cs ++ ' ' :: t.clockChars, ?_, hc⟩
    ⟨t.date.dayChars ++ ' ' :: (padded 2 t.hour ++ ':' :: (padded 2 t.minute ++ ':' :: ds)), d, ?_,
      Text.not_blank_of_digit hd⟩
  · rw [hday, List.cons_append]
  · simp only [clockChars, hsecond, List.cons_append, List.append_assoc]

theorem text_isEmpty (t : Instant) : t.text.isEmpty = false := by
  rw [String.isEmpty_eq_false_iff, ne_eq, ← String.toList_inj, text, String.toList_ofList]
  exact List.append_ne_nil_of_right_ne_nil _ (List.cons_ne_nil _ _)

/-- The figures of an instant as its text shows them. -/
def figures (t : Instant) : Figures :=
  ⟨t.date.year, t.date.month, t.date.day, t.hour, t.minute, t.secondShown, 0⟩

theorem read?_text (t : Instant) :
    ({} : Figures).read? (Form.date ++ .space :: Form.seconds) (t.date.dayChars ++ ' ' :: t.clockChars) =
      some t.figures := by
  have hsecond := read?_figure ⟨t.date.year, t.date.month, t.date.day, t.hour, t.minute, 0, 0⟩ []
    (f := .second) (by rintro ⟨⟩) t.secondShown_lt []
  rw [List.append_nil] at hsecond
  simp only [Form.date, Form.seconds, Form.minutes, List.cons_append, List.nil_append, Date.dayChars,
    Date.monthChars, clockChars, List.append_assoc]
  rw [read?_year _ _ _ (ends_cons (by decide) _), read?_mark, read?_figure _ _ (by rintro ⟨⟩) t.date.month_lt,
    read?_mark, read?_figure _ _ (by rintro ⟨⟩) t.date.day_lt, read?_space,
    read?_figure _ _ (by rintro ⟨⟩) t.hour_lt, read?_mark, read?_figure _ _ (by rintro ⟨⟩) t.minute_lt,
    read?_mark]
  exact hsecond

theorem of?_wholeSecond (t : Instant) {second nano : Nat} (hsecond : second = t.second)
    (hnano : nano = billion * (t.nano / billion)) : of? t.date second nano = some t.wholeSecond := by
  subst hsecond hnano
  exact dif_pos t.whole_second_valid

/-- What a clock shows is the whole second, where second 60 is a leap second. -/
theorem ofClock?_shown (t : Instant) :
    ofClock? t.date t.hour t.minute t.secondShown 0 = some t.wholeSecond := by
  have hvalid := t.valid
  have hhour : t.hour = t.second / 3600 := rfl
  have hminute : t.minute = t.second / 60 % 60 := rfl
  have hshown : t.secondShown = t.second % 60 + t.nano / billion := rfl
  simp only [IsClock, billion] at hvalid hshown
  rw [ofClock?, if_pos (by omega)]
  dsimp only
  split_ifs with hshort hleap
  · refine t.of?_wholeSecond (by omega) ?_
    rw [billion]
    omega
  · refine t.of?_wholeSecond (by omega) ?_
    rw [billion]
    omega
  · omega

theorem instant?_figures (t : Instant) : t.figures.instant? = some t.wholeSecond := by
  have hdate : Date.of? t.date.year t.date.month t.date.day = some t.date := dif_pos t.date.valid
  rw [Figures.instant?, figures, hdate]
  exact t.ofClock?_shown

theorem bind_of_some {α β : Type} {x : Option α} {f : α → Option β} {a : α} (h : x = some a) :
    x >>= f = f a := by
  rw [h]
  rfl

/-- No offset ends the text, so it is not a timestamp. -/
theorem withOffset?_text (t : Instant) :
    withOffset? (t.date.dayChars ++ ' ' :: t.clockChars) = none := by
  have hsecond := exactly?_padded (show 0 < 2 by decide) t.secondShown_lt []
  rw [List.append_nil] at hsecond
  simp only [Date.dayChars, Date.monthChars, clockChars, List.append_assoc, List.cons_append]
  -- A year without a sign has the width it must have, and everything behind it too; what is missing is the
  -- offset. A sign is no figure.
  by_cases hyear : 0 ≤ t.date.year ∧ t.date.year ≤ 9999
  · have hfits : t.date.year.toNat < 10 ^ 4 := by omega
    rw [yearText, if_pos hyear, withOffset?]
    refine (bind_of_some (exactly?_padded (by decide) hfits _)).trans ?_
    refine (bind_of_some (char?_self _ _)).trans ?_
    refine (bind_of_some (exactly?_padded (by decide) t.date.month_lt _)).trans ?_
    refine (bind_of_some (char?_self _ _)).trans ?_
    refine (bind_of_some (exactly?_padded (by decide) t.date.day_lt _)).trans ?_
    refine (bind_of_some rfl).trans ?_
    refine (bind_of_some (exactly?_padded (by decide) t.hour_lt _)).trans ?_
    refine (bind_of_some (char?_self _ _)).trans ?_
    refine (bind_of_some (exactly?_padded (by decide) t.minute_lt _)).trans ?_
    refine (bind_of_some (char?_self _ _)).trans ?_
    exact bind_of_some hsecond
  · rw [yearText, if_neg hyear, withOffset?, List.cons_append, exactly?_none]
    · rfl
    · split <;> decide

/-- The text of an instant names it, but for the part of a second. -/
theorem ofText?_text (t : Instant) : ofText? t.text = some t.wholeSecond := by
  have hform : (({} : Figures).read? (Form.date ++ .space :: Form.seconds)
      (t.date.dayChars ++ ' ' :: t.clockChars)).bind Figures.instant? = some t.wholeSecond := by
    rw [read?_text, Option.bind_some, instant?_figures]
  rw [ofText?, trim_text, text, String.toList_ofList, withOffset?_text, Option.none_or, withoutOffset?,
    Form.all, List.findSome?_cons, hform]

theorem wholeSecond_text (t : Instant) : t.wholeSecond.text = t.text := by
  have hshown : t.wholeSecond.secondShown = t.secondShown := by
    simp only [secondShown, wholeSecond, billion]
    omega
  rw [text, text, clockChars, clockChars, hshown]
  rfl

end Instant

end BucketQuery.Calendar
