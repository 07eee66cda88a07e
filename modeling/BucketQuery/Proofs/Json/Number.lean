import BucketQuery.Json.Written
import BucketQuery.Proofs.Double.Shortest
import BucketQuery.Proofs.Json.Document
import BucketQuery.Proofs.Json.Numeral

/-! Numbers read back.

What is read of a number that was written need not be the number: the quick way of reading may end a unit
away from it. But something is read, whatever number a text gave (`numberAt_text`): the largest of them are
not written so high that the detour in powers of ten leaves the range. -/
namespace BucketQuery.Json

open Reading

/-- A number that a text can give. -/
def Number.Held : Number → Prop
  | .int n => -2 ^ 63 ≤ n ∧ n < 2 ^ 64
  | .float x => x.Held

theorem Reading.Numeral.number?_held {n : Numeral} {v : Number} (h : n.number? = some v) : v.Held := by
  cases hform : n.part.isSome || n.exponent.isSome with
  | true =>
    rw [Numeral.number?_scaled n hform] at h
    obtain ⟨x, hx, rfl⟩ := Option.map_eq_some_iff.mp h
    exact Double.ofScaled?_held hx
  | false =>
    obtain ⟨negative, whole, part, exponent⟩ := n
    obtain ⟨rfl, rfl⟩ : part = none ∧ exponent = none := by simpa using hform
    have hkept : (intoSignificand 0 whole).1 ≤ largest := intoSignificand_le whole (Nat.zero_le _)
    have hlargest : largest < 2 ^ 64 := by decide
    rw [Numeral.number?] at h
    dsimp only at h
    split_ifs at h
    · obtain ⟨x, hx, rfl⟩ := Option.map_eq_some_iff.mp h
      exact Double.ofScaled?_held hx
    · cases h
      exact ⟨by omega, by omega⟩
    · cases h
      exact Double.nearest_held _ _ _
    · cases h
      exact ⟨by omega, by omega⟩

/-! ### Digits -/

theorem digitsValue_le_largest {ds : List Char} (hall : ds.all Char.isDigit = true) (hlength : ds.length ≤ 19) :
    Double.digitsValue ds ≤ largest := by
  have hlt := ofDigitChars_lt hall 0
  have hpower : 10 ^ ds.length ≤ 10 ^ 19 := Nat.pow_le_pow_right (by decide) hlength
  have hlargest : 10 ^ 19 ≤ largest := by decide
  rw [Double.digitsValue_eq]
  omega

/-- No zero stands in front of the digits of a number. -/
theorem toDigits_ne_zero_cons {n : Nat} (hn : 0 < n) (ds : List Char) : Nat.toDigits 10 n ≠ '0' :: ds := by
  intro h
  have hall := Double.toDigits_all n
  have hvalue : Nat.ofDigitChars 10 ds 0 = n := by
    rw [← Double.digitsValue_toDigits n, h]
    rfl
  rw [h, List.all_cons, Bool.and_eq_true] at hall
  have hlt := ofDigitChars_lt hall.2 0
  rcases Nat.eq_zero_or_pos ds.length with hnil | hpos
  · rw [hvalue, hnil] at hlt
    omega
  · have hlength := (Nat.length_toDigits_le_iff (by decide : 1 < 10) hpos).mpr (by omega : n < 10 ^ ds.length)
    rw [h, List.length_cons] at hlength
    omega

/-! ### Without an exponent -/

/-- The text is a whole part that is not long, a point, and digits behind it. -/
structure Pointed (text whole part : List Char) : Prop where
  text_eq : text = whole ++ '.' :: part
  whole_ne : whole ≠ []
  whole_digits : whole.all Char.isDigit = true
  whole_start : ∀ d ds, whole ≠ '0' :: d :: ds
  whole_length : whole.length ≤ 16
  part_ne : part ≠ []
  part_digits : part.all Char.isDigit = true

/-- One digit may be a zero. -/
theorem one_start (c d : Char) (ds : List Char) : [c] ≠ '0' :: d :: ds := by
  intro h
  cases h

theorem Pointed.numeral (negative : Bool) {text whole part : List Char} (h : Pointed text whole part) :
    ∃ n : Numeral, n.Proper ∧ n.chars = (if negative then ['-'] else []) ++ text ∧
      n.number?.isSome = true := by
  have hpart : ∀ ds ∈ some part, ds ≠ [] ∧ ds.all Char.isDigit = true := by
    rintro _ ⟨⟩
    exact ⟨h.part_ne, h.part_digits⟩
  have hlength : whole.length ≤ 19 := h.whole_length.trans (by decide)
  refine ⟨⟨negative, whole, some part, none⟩, ⟨h.whole_ne, h.whole_digits, h.whole_start, hpart, nofun⟩, ?_, ?_⟩
  · rw [h.text_eq, Numeral.chars, Numeral.partChars, Numeral.exponentChars, Option.elim_some,
      Option.elim_none, List.append_nil]
    rfl
  · exact Numeral.number?_isSome rfl (digitsValue_le_largest h.whole_digits hlength) fun hwritten =>
      absurd hwritten (lt_irrefl 0)

section Places
variable {digits : List Char} (hall : digits.all Char.isDigit = true) (hne : digits ≠ [])
  (hstart : ∀ ds, digits ≠ '0' :: ds)
include hall hne hstart

theorem positionally_pointed {e : Int} (hplace : e + digits.length ≤ 16) :
    ∃ whole part, Pointed (Double.positionally true digits e) whole part := by
  have hpos : 0 < digits.length := List.length_pos_iff.mpr hne
  -- What does not begin with a zero does not do so for having something behind it.
  have hfront {whole rest : List Char} (h : whole ++ rest = digits) (ds : List Char) : whole ≠ '0' :: ds := by
    rintro rfl
    exact hstart (ds ++ rest) h.symm
  rw [Double.positionally]
  by_cases he : 0 ≤ e
  · rw [if_pos he]
    refine ⟨digits ++ Double.zeros e.toNat, ['0'], rfl, List.append_ne_nil_of_left_ne_nil hne _, ?_, ?_, ?_,
      List.cons_ne_nil _ _, rfl⟩
    · rw [List.all_append, hall, Double.zeros_all, Bool.and_self]
    · obtain ⟨d, ds, rfl⟩ := List.exists_cons_of_ne_nil hne
      intro c cs h
      obtain ⟨rfl, -⟩ := List.cons.inj h
      exact hstart ds rfl
    · rw [List.length_append, Double.zeros, List.length_replicate]
      omega
  · rw [if_neg he]
    dsimp only
    by_cases hplaces : (-e).toNat < digits.length
    · rw [if_pos hplaces]
      obtain ⟨whole, part, haround, hlength, hsplit⟩ := Double.point_among hall (by omega) hplaces
      have hpart : 0 < part.length := by omega
      have hwhole : whole.length + part.length = digits.length := by rw [← List.length_append, hsplit]
      exact ⟨whole, part, Double.behindPoint_eq hpart ▸ haround.text_eq, haround.whole_ne,
        haround.whole_digits, fun d ds => hfront hsplit _, by omega, List.length_pos_iff.mp hpart,
        haround.part_digits⟩
    · rw [if_neg hplaces]
      refine ⟨['0'], Double.zeros ((-e).toNat - digits.length) ++ digits, rfl, List.cons_ne_nil _ _, rfl,
        one_start _, by decide, List.append_ne_nil_of_right_ne_nil _ hne, ?_⟩
      rw [List.all_append, hall, Double.zeros_all, Bool.and_self]

end Places

/-! ### With an exponent -/

/-- The numeral of `d.ds` times ten to the power `place`. -/
def scientificNumeral (negative : Bool) (d : Char) (ds : List Char) (place : Int) : Numeral :=
  ⟨negative, [d], if ds.isEmpty then none else some ds, some (decide (place < 0), Nat.toDigits 10 place.natAbs)⟩

section Scientific
variable (negative : Bool) {d : Char} {ds : List Char} (place : Int)

theorem scientificNumeral_proper (hall : (d :: ds).all Char.isDigit = true) :
    (scientificNumeral negative d ds place).Proper := by
  rw [List.all_cons, Bool.and_eq_true] at hall
  refine ⟨List.cons_ne_nil _ _, by rw [scientificNumeral, List.all_cons, hall.1]; rfl, one_start d, ?_, ?_⟩
  · intro part hpart
    rw [scientificNumeral] at hpart
    dsimp only at hpart
    split_ifs at hpart with hempty
    · cases hpart
    · cases hpart
      exact ⟨fun hnil => hempty (hnil ▸ rfl), hall.2⟩
  · rintro _ ⟨⟩
    exact ⟨Nat.toDigits_ne_nil, Double.toDigits_all _⟩

theorem scientificNumeral_chars :
    (scientificNumeral negative d ds place).chars =
      (if negative then ['-'] else []) ++ Double.scientifically (d :: ds) place := by
  cases ds <;> simp [scientificNumeral, Numeral.chars, Numeral.signChars, Numeral.partChars,
    Numeral.exponentChars, Double.scientifically]

/-- The numeral is in range if what it writes is so with the slack of two steps. -/
theorem scientificNumeral_isSome (hall : (d :: ds).all Char.isDigit = true)
    (h : (Double.digitsValue (d :: ds) * 10 ^ (place - ds.length) : ℚ) * Double.slack < 2 ^ 1024 - 2 ^ 970) :
    (scientificNumeral negative d ds place).number?.isSome = true := by
  rw [List.all_cons, Bool.and_eq_true] at hall
  have hwhole : Double.digitsValue [d] ≤ largest :=
    digitsValue_le_largest (by rw [List.all_cons, hall.1]; rfl) (by decide : 1 ≤ 19)
  have hpart : (scientificNumeral negative d ds place).part.getD [] = ds := by
    cases ds <;> rfl
  have hwritten : (scientificNumeral negative d ds place).written = place := by
    rw [scientificNumeral, Numeral.written, Option.elim_some, Double.digitsValue_toDigits]
    dsimp only
    rcases lt_or_ge place 0 with hneg | hpos
    · rw [if_pos (decide_eq_true hneg)]
      omega
    · rw [if_neg (by simpa using hpos)]
      omega
  refine Numeral.number?_isSome (Bool.or_true _) hwhole fun _ => ?_
  rw [Numeral.digits, hpart, hwritten]
  exact h

end Scientific

/-! ### All numbers -/

theorem finiteText_numeral (negative : Bool) {m : Nat} {e : Int} (h : (Double.finite negative m e).Held) :
    ∃ n : Numeral, n.Proper ∧ n.chars = (Double.finiteText .json negative m e).toList ∧
      (m + 4 ≤ 2 ^ 53 ∨ e < 971 → n.number?.isSome = true) := by
  rw [Double.finiteText, String.toList_ofList, Double.magnitude]
  by_cases hm : m = 0
  · have hzero : Pointed ['0', '.', '0'] ['0'] ['0'] :=
      ⟨rfl, List.cons_ne_nil _ _, rfl, one_start _, by decide, List.cons_ne_nil _ _, rfl⟩
    obtain ⟨n, hproper, hchars, hsome⟩ := hzero.numeral negative
    rw [if_pos hm]
    exact ⟨n, hproper, hchars, fun _ => hsome⟩
  · have hpos := Nat.pos_of_ne_zero hm
    have hrange := Double.shortest_inRange .even hpos h
    obtain ⟨hdigits, -⟩ := Double.shortest_spec .even hpos h
    rw [if_neg hm]
    dsimp only [Double.Layout.json]
    generalize Double.shortest .even m e = decimal at hrange hdigits
    have hall := Double.toDigits_all decimal.digits
    have hvalue := Double.digitsValue_toDigits decimal.digits
    have hstart := toDigits_ne_zero_cons hdigits
    obtain ⟨d, ds, hcons⟩ := List.exists_cons_of_ne_nil (Nat.toDigits_ne_nil (n := decimal.digits) (b := 10))
    rw [hcons] at hall hvalue hstart ⊢
    generalize hplace : decimal.exponent + ((d :: ds).length : Int) - 1 = place
    rw [List.length_cons] at hplace
    by_cases hlow : (decide (-5 ≤ place) && decide (place ≤ 15)) = true
    · rw [if_pos hlow]
      rw [Bool.and_eq_true, decide_eq_true_eq, decide_eq_true_eq] at hlow
      obtain ⟨whole, part, hpointed⟩ := positionally_pointed (e := decimal.exponent) hall
        (List.cons_ne_nil _ _) hstart (by rw [List.length_cons]; omega)
      obtain ⟨n, hproper, hchars, hsome⟩ := hpointed.numeral negative
      exact ⟨n, hproper, hchars, fun _ => hsome⟩
    · rw [if_neg hlow]
      refine ⟨scientificNumeral negative d ds place, scientificNumeral_proper negative place hall,
        scientificNumeral_chars negative place, fun htop => scientificNumeral_isSome negative place hall ?_⟩
      rw [hvalue, show place - ds.length = decimal.exponent by omega]
      exact hrange htop

/-- What is read of a text that is a number. -/
def readBack? (text : List Char) : Option Number := (numeral true text).toOption.bind fun r => r.1.number?

theorem readBack?_chars {n : Numeral} (h : n.Proper) : readBack? n.chars = n.number? := by
  have hread := numeral_chars true h endsNumber_nil
  rw [List.append_nil] at hread
  rw [readBack?, hread]
  rfl

/-- The last three numbers, whose decimals leave no room for two steps of rounding. -/
theorem readBack?_top (negative : Bool) {m : Nat} (h : 2 ^ 53 < m + 4 ∧ m < 2 ^ 53) :
    (readBack? (Double.finiteText .json negative m 971).toList).isSome = true := by
  obtain rfl | rfl | rfl : m = 2 ^ 53 - 1 ∨ m = 2 ^ 53 - 2 ∨ m = 2 ^ 53 - 3 := by omega
  all_goals
    cases negative <;> decide +kernel

/-- The numeral of a whole number. -/
def intNumeral (n : Int) : Numeral := ⟨decide (n < 0), Nat.toDigits 10 n.natAbs, none, none⟩

theorem intNumeral_chars (n : Int) : (intNumeral n).chars = (Number.int n).text.toList := by
  cases n with
  | ofNat k =>
    have htext : (Number.int (Int.ofNat k)).text = toString k := rfl
    rw [htext, Nat.toString_eq_ofList_toDigits, String.toList_ofList]
    exact List.append_nil _
  | negSucc k =>
    have htext : (Number.int (Int.negSucc k)).text = "-" ++ toString (k + 1) := rfl
    have hminus : "-".toList = ['-'] := by decide
    rw [htext, String.toList_append, hminus, Nat.toString_eq_ofList_toDigits, String.toList_ofList,
      intNumeral, decide_eq_true (Int.negSucc_lt_zero k)]
    exact congrArg ('-' :: ·) (List.append_nil _)

theorem intNumeral_proper (n : Int) : (intNumeral n).Proper := by
  refine ⟨Nat.toDigits_ne_nil, Double.toDigits_all _, ?_, nofun, nofun⟩
  intro d ds h
  rw [intNumeral] at h
  rcases Nat.eq_zero_or_pos n.natAbs with hzero | hpos
  · rw [hzero, Nat.toDigits_zero] at h
    cases h
  · exact toDigits_ne_zero_cons hpos _ h

/-- A whole number of 64 bits is read as it was. -/
theorem intNumeral_number? {n : Int} (h : (Number.int n).Held) : (intNumeral n).number? = some (.int n) := by
  obtain ⟨hlow, hhigh⟩ := h
  have hlargest : n.natAbs ≤ 2 ^ 64 - 1 := by omega
  have hkept : intoSignificand 0 (Nat.toDigits 10 n.natAbs) = (n.natAbs, (Nat.toDigits 10 n.natAbs).length, 0) := by
    rw [intoSignificand_of_le, Nat.ofDigitChars_ten_toDigits]
    rwa [Nat.ofDigitChars_ten_toDigits]
  rw [intNumeral, Numeral.number?, hkept]
  dsimp only
  rw [if_neg (Nat.lt_irrefl 0)]
  rcases lt_or_ge n 0 with hneg | hpos
  · rw [decide_eq_true hneg, if_neg (by decide), if_neg (by omega)]
    exact congrArg (some ∘ Number.int) (by omega)
  · rw [decide_eq_false (not_lt.mpr hpos), if_pos (by decide)]
    exact congrArg (some ∘ Number.int) (by omega)

namespace Number

theorem text_numeral {n : Number} (h : n.Held) (hfinite : (Json.number n).isFinite = true) :
    ∃ r : Numeral, r.Proper ∧ r.chars = n.text.toList ∧ r.number?.isSome = true := by
  cases n with
  | int n => exact ⟨intNumeral n, intNumeral_proper n, intNumeral_chars n, by rw [intNumeral_number? h]; rfl⟩
  | float x =>
    obtain ⟨s, m, e, rfl⟩ := Double.isFinite_cases (by rwa [isFinite] at hfinite)
    have hheld : (Double.finite s m e).Held := h
    obtain ⟨r, hproper, hchars, hsome⟩ := finiteText_numeral s hheld
    refine ⟨r, hproper, hchars, ?_⟩
    obtain ⟨hmantissa, -, hmost⟩ := hheld
    have hmost' : e ≤ 971 := hmost
    by_cases htop : m + 4 ≤ 2 ^ 53 ∨ e < 971
    · exact hsome htop
    · obtain rfl : e = 971 := by omega
      rw [← readBack?_chars hproper, hchars]
      exact readBack?_top s (by omega)

/-- The number that is read where a number was written. -/
def reread (n : Number) : Number := (readBack? n.text.toList).getD n

/-- **A number is read where a number was written.** -/
theorem numberAt_text {n : Number} (h : n.Held) (hfinite : (Json.number n).isFinite = true) {rest : List Char}
    (hrest : EndsNumber rest) : numberAt (n.text.toList ++ rest) = (.number n.reread, some rest) := by
  obtain ⟨r, hproper, hchars, hsome⟩ := text_numeral h hfinite
  obtain ⟨v, hv⟩ := Option.isSome_iff_exists.mp hsome
  rw [reread, ← hchars, readBack?_chars hproper, hv, numberAt, numeral_chars true hproper hrest]
  dsimp only
  rw [hv]
  rfl

/-- A number begins with its sign or a digit. -/
theorem text_start {n : Number} (h : n.Held) (hfinite : (Json.number n).isFinite = true) :
    ∃ c cs, n.text.toList = c :: cs ∧ (c = '-' ∨ c.isDigit = true) := by
  obtain ⟨r, hproper, hchars, -⟩ := text_numeral h hfinite
  obtain ⟨d, ds, hcons, hd⟩ := (Double.startsWithDigit_of_all hproper.whole_ne hproper.whole_digits).append
    (r.partChars ++ r.exponentChars)
  rw [← hchars, Numeral.chars, hcons, Numeral.signChars]
  cases r.negative with
  | true => exact ⟨'-', _, rfl, .inl rfl⟩
  | false => exact ⟨d, _, rfl, .inr hd⟩

end Number

end BucketQuery.Json
