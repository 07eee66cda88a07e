import BucketQuery.Json.Reading
import BucketQuery.Proofs.Double.Layout
import BucketQuery.Proofs.Double.Rounding

/-! Numerals of JSON text.

A numeral in its proper form is read as what it consists of, and no further (`numeral_chars`). The digits of
its significand are taken as long as they fit in 64 bits, so what is taken never exceeds what they write
(`intoSignificand_mul_le`). -/
namespace BucketQuery.Json.Reading

/-- Nothing here goes on with a numeral. -/
def EndsNumber (rest : List Char) : Prop :=
  ∀ c ∈ rest.head?, c.isDigit = false ∧ c ≠ '.' ∧ c ≠ 'e' ∧ c ≠ 'E'

theorem endsNumber_nil : EndsNumber [] := nofun

theorem endsNumber_cons {c : Char} (hdigit : c.isDigit = false) (hpoint : c ≠ '.') (he : c ≠ 'e')
    (hE : c ≠ 'E') (rest : List Char) : EndsNumber (c :: rest) := by
  intro d hd
  obtain rfl : c = d := Option.some.inj hd
  exact ⟨hdigit, hpoint, he, hE⟩

namespace Numeral

variable (n : Numeral)

def signChars : List Char := if n.negative then ['-'] else []

def partChars : List Char := n.part.elim [] ('.' :: ·)

def exponentChars : List Char := n.exponent.elim [] fun e => 'e' :: (if e.1 then '-' else '+') :: e.2

/-- The numeral as it is written. -/
def chars : List Char := n.signChars ++ (n.whole ++ (n.partChars ++ n.exponentChars))

/-- Digits stand wherever they have to, and none in front of them that says nothing. -/
structure Proper : Prop where
  whole_ne : n.whole ≠ []
  whole_digits : n.whole.all Char.isDigit = true
  whole_start : ∀ d ds, n.whole ≠ '0' :: d :: ds
  part : ∀ ds ∈ n.part, ds ≠ [] ∧ ds.all Char.isDigit = true
  exponent : ∀ e ∈ n.exponent, e.2 ≠ [] ∧ e.2.all Char.isDigit = true

end Numeral

section Read
variable (skipping : Bool)

theorem span_digits {ds rest : List Char} (h : ds.all Char.isDigit = true)
    (hrest : rest.head?.all (!Char.isDigit ·) = true) : (ds ++ rest).span Char.isDigit = (ds, rest) :=
  Double.spanDigits_append rest h hrest

theorem wholeDigits_append {ds rest : List Char} (hne : ds ≠ []) (h : ds.all Char.isDigit = true)
    (hstart : ∀ d rest, ds ≠ '0' :: d :: rest) (hrest : rest.head?.all (!Char.isDigit ·) = true) :
    wholeDigits skipping (ds ++ rest) = .ok (ds, rest) := by
  rw [wholeDigits, span_digits h hrest]
  split
  · rename_i heq
    exact absurd (Prod.mk.inj heq).1 hne
  · rename_i heq
    exact absurd (Prod.mk.inj heq).1 (hstart _ _)
  · rfl

theorem partDigits_none {rest : List Char} (h : ∀ c ∈ rest.head?, c ≠ '.') :
    partDigits skipping rest = .ok (none, rest) := by
  rw [partDigits.eq_def]
  split
  · exact absurd rfl (h '.' rfl)
  · rfl

theorem partDigits_some {ds rest : List Char} (hne : ds ≠ []) (h : ds.all Char.isDigit = true)
    (hrest : rest.head?.all (!Char.isDigit ·) = true) :
    partDigits skipping ('.' :: (ds ++ rest)) = .ok (some ds, rest) := by
  rw [partDigits, span_digits h hrest]
  split
  · rename_i heq
    exact absurd (Prod.mk.inj heq).1 hne
  · rename_i heq
    obtain ⟨rfl, rfl⟩ := Prod.mk.inj heq
    rfl

theorem exponentDigits_none {rest : List Char} (h : ∀ c ∈ rest.head?, c ≠ 'e' ∧ c ≠ 'E') :
    exponentDigits skipping rest = .ok (none, rest) := by
  cases rest with
  | nil => rfl
  | cons c rest =>
    obtain ⟨he, hE⟩ := h c rfl
    have hmark : (c == 'e' || c == 'E') = false := by
      rw [beq_eq_false_iff_ne.mpr he, beq_eq_false_iff_ne.mpr hE, Bool.or_self]
    rw [exponentDigits.eq_def]
    simp only [hmark, Bool.false_eq_true, if_false]

theorem exponentDigits_some (negative : Bool) {ds rest : List Char} (hne : ds ≠ [])
    (h : ds.all Char.isDigit = true) (hrest : rest.head?.all (!Char.isDigit ·) = true) :
    exponentDigits skipping ('e' :: (if negative then '-' else '+') :: (ds ++ rest)) =
      .ok (some (negative, ds), rest) := by
  have hspan := span_digits h hrest
  obtain ⟨d, ds, rfl⟩ := List.exists_cons_of_ne_nil hne
  cases negative
  all_goals
    rw [exponentDigits.eq_def]
    simp only [beq_self_eq_true, Bool.true_or, if_true, Bool.false_eq_true, if_false, hspan]

theorem head_all {cs : List Char} (h : ∀ c ∈ cs.head?, c.isDigit = false) :
    cs.head?.all (!Char.isDigit ·) = true := by
  cases cs with
  | nil => rfl
  | cons c cs =>
    have hc := h c rfl
    rw [List.head?_cons, Option.all_some, hc]
    rfl

/-- A sign is taken off, and then one part after the other. -/
theorem numeral_ok {n : Numeral} {d : Char} (hd : d.isDigit = true) {cs afterWhole afterPart rest : List Char}
    (hwhole : wholeDigits skipping (d :: cs) = .ok (n.whole, afterWhole))
    (hpart : partDigits skipping afterWhole = .ok (n.part, afterPart))
    (hexponent : exponentDigits skipping afterPart = .ok (n.exponent, rest)) :
    numeral skipping (n.signChars ++ d :: cs) = .ok (n, rest) := by
  obtain ⟨negative, whole, part, exponent⟩ := n
  have hsign : d ≠ '-' := by
    rintro rfl
    exact absurd hd (by decide)
  rw [numeral.eq_def]
  cases negative with
  | true =>
    simp only [Numeral.signChars, if_true, List.cons_append, List.nil_append, hwhole, bind, Except.bind,
      hpart, hexponent]
    rfl
  | false =>
    simp only [Numeral.signChars, Bool.false_eq_true, if_false, List.nil_append]
    split
    · rename_i heq
      cases heq
      exact absurd rfl hsign
    · simp only [hwhole, bind, Except.bind, hpart, hexponent]
      rfl

/-- A numeral is read as what it consists of. -/
theorem numeral_chars {n : Numeral} (h : n.Proper) {rest : List Char} (hrest : EndsNumber rest) :
    numeral skipping (n.chars ++ rest) = .ok (n, rest) := by
  have hexponent : exponentDigits skipping (n.exponentChars ++ rest) = .ok (n.exponent, rest) ∧
      ∀ c ∈ (n.exponentChars ++ rest).head?, c.isDigit = false ∧ c ≠ '.' := by
    rw [Numeral.exponentChars]
    cases he : n.exponent with
    | none =>
      exact ⟨exponentDigits_none skipping fun c hc => (hrest c hc).2.2,
        fun c hc => ⟨(hrest c hc).1, (hrest c hc).2.1⟩⟩
    | some e =>
      obtain ⟨hne, hall⟩ := h.exponent e he
      refine ⟨exponentDigits_some skipping e.1 hne hall (head_all fun c hc => (hrest c hc).1), ?_⟩
      rintro _ ⟨⟩
      decide
  rw [Numeral.chars, List.append_assoc, List.append_assoc, List.append_assoc]
  generalize n.exponentChars ++ rest = behind at hexponent
  obtain ⟨hexponent, hbehind⟩ := hexponent
  have hpart : partDigits skipping (n.partChars ++ behind) = .ok (n.part, behind) ∧
      ∀ c ∈ (n.partChars ++ behind).head?, c.isDigit = false := by
    rw [Numeral.partChars]
    cases hp : n.part with
    | none =>
      exact ⟨partDigits_none skipping fun c hc => (hbehind c hc).2, fun c hc => (hbehind c hc).1⟩
    | some ds =>
      obtain ⟨hne, hall⟩ := h.part ds hp
      refine ⟨partDigits_some skipping hne hall (head_all fun c hc => (hbehind c hc).1), ?_⟩
      rintro _ ⟨⟩
      decide
  generalize n.partChars ++ behind = front at hpart
  obtain ⟨hpart, hfront⟩ := hpart
  have hwhole := wholeDigits_append skipping h.whole_ne h.whole_digits h.whole_start (head_all hfront)
  obtain ⟨d, ds, hcons, hd⟩ := (Double.startsWithDigit_of_all h.whole_ne h.whole_digits).append front
  rw [hcons] at hwhole ⊢
  exact numeral_ok skipping hd hwhole hpart hexponent

end Read

/-! ### Significands -/

theorem ofDigitChars_cons (d : Char) (ds : List Char) (s : Nat) :
    Nat.ofDigitChars 10 (d :: ds) s = Nat.ofDigitChars 10 ds (10 * s + (d.toNat - 48)) :=
  Nat.ofDigitChars_cons

theorem ofDigitChars_lt {ds : List Char} (h : ds.all Char.isDigit = true) (s : Nat) :
    Nat.ofDigitChars 10 ds s < (s + 1) * 10 ^ ds.length := by
  induction ds generalizing s with
  | nil =>
    rw [Nat.ofDigitChars_nil, List.length_nil, Nat.pow_zero, Nat.mul_one]
    exact Nat.lt_succ_self s
  | cons d ds ih =>
    rw [List.all_cons, Bool.and_eq_true] at h
    have hd : d.toNat - 48 < 10 := by
      have hhigh : d.toNat ≤ 57 := (Char.isDigit_iff_toNat.mp h.1).2
      omega
    rw [ofDigitChars_cons, List.length_cons, Nat.pow_succ']
    calc Nat.ofDigitChars 10 ds (10 * s + (d.toNat - 48))
        < (10 * s + (d.toNat - 48) + 1) * 10 ^ ds.length := ih h.2 _
      _ ≤ (s + 1) * 10 * 10 ^ ds.length := Nat.mul_le_mul_right _ (by omega)
      _ = (s + 1) * (10 * 10 ^ ds.length) := Nat.mul_assoc _ _ _

theorem le_ofDigitChars (ds : List Char) (s : Nat) : s * 10 ^ ds.length ≤ Nat.ofDigitChars 10 ds s := by
  rw [Nat.ofDigitChars_eq_ofDigitChars_zero, Nat.mul_comm]
  exact Nat.le_add_right _ _

section Significand
variable {s : Nat} {d : Char} (ds : List Char)

theorem intoSignificand_over (h : largest < 10 * s + (d.toNat - 48)) :
    intoSignificand s (d :: ds) = (s, 0, ds.length + 1) := by
  rw [intoSignificand]
  exact if_pos h

theorem intoSignificand_fits (h : 10 * s + (d.toNat - 48) ≤ largest) :
    intoSignificand s (d :: ds) =
      ((intoSignificand (10 * s + (d.toNat - 48)) ds).1,
        (intoSignificand (10 * s + (d.toNat - 48)) ds).2.1 + 1,
        (intoSignificand (10 * s + (d.toNat - 48)) ds).2.2) := by
  rw [intoSignificand]
  exact if_neg (Nat.not_lt.mpr h)

/-- Every digit is taken or left. -/
theorem intoSignificand_length (s : Nat) :
    (intoSignificand s ds).2.1 + (intoSignificand s ds).2.2 = ds.length := by
  induction ds generalizing s with
  | nil => rfl
  | cons d ds ih =>
    rcases Nat.lt_or_ge largest (10 * s + (d.toNat - 48)) with hover | hfits
    · rw [intoSignificand_over ds hover, List.length_cons, Nat.zero_add]
    · rw [intoSignificand_fits ds hfits, List.length_cons, ← ih (10 * s + (d.toNat - 48))]
      exact Nat.add_right_comm _ _ _

theorem intoSignificand_le (hs : s ≤ largest) : (intoSignificand s ds).1 ≤ largest := by
  induction ds generalizing s with
  | nil => exact hs
  | cons d ds ih =>
    rcases Nat.lt_or_ge largest (10 * s + (d.toNat - 48)) with hover | hfits
    · rw [intoSignificand_over ds hover]
      exact hs
    · rw [intoSignificand_fits ds hfits]
      exact ih hfits

/-- Digits that write no more than the largest significand are all taken. -/
theorem intoSignificand_of_le (h : Nat.ofDigitChars 10 ds s ≤ largest) :
    intoSignificand s ds = (Nat.ofDigitChars 10 ds s, ds.length, 0) := by
  induction ds generalizing s with
  | nil => rfl
  | cons d ds ih =>
    rw [ofDigitChars_cons] at h
    have hfits : 10 * s + (d.toNat - 48) ≤ largest :=
      calc 10 * s + (d.toNat - 48) ≤ (10 * s + (d.toNat - 48)) * 10 ^ ds.length :=
            Nat.le_mul_of_pos_right _ (Nat.pow_pos (by decide))
        _ ≤ Nat.ofDigitChars 10 ds (10 * s + (d.toNat - 48)) := le_ofDigitChars ds _
        _ ≤ largest := h
    rw [intoSignificand_fits ds hfits, ih h, ofDigitChars_cons, List.length_cons]

/-- What is taken is no more than what the digits write. -/
theorem intoSignificand_mul_le (s : Nat) :
    (intoSignificand s ds).1 * 10 ^ (intoSignificand s ds).2.2 ≤ Nat.ofDigitChars 10 ds s := by
  induction ds generalizing s with
  | nil => exact Nat.le_of_eq (Nat.mul_one s)
  | cons d ds ih =>
    rcases Nat.lt_or_ge largest (10 * s + (d.toNat - 48)) with hover | hfits
    · rw [intoSignificand_over ds hover]
      exact le_ofDigitChars (d :: ds) s
    · rw [intoSignificand_fits ds hfits, ofDigitChars_cons]
      exact ih _

end Significand

/-! ### The number of a numeral -/

namespace Numeral
variable (n : Numeral)

/-- The significand of the digits in front of the point, and how many of them were taken and left. -/
def wholeTaken : Nat × Nat × Nat := intoSignificand 0 n.whole

/-- The significand of all digits, and how many of those behind the point were taken and left. -/
def partTaken : Nat × Nat × Nat := intoSignificand n.wholeTaken.1 (n.part.getD [])

/-- The exponent that is written. -/
def written : Int := n.exponent.elim 0 fun e => if e.1 then -Double.digitsValue e.2 else Double.digitsValue e.2

/-- A numeral with a point or an exponent stands for its digits times a power of ten. -/
theorem number?_scaled (h : (n.part.isSome || n.exponent.isSome) = true) :
    n.number? = (Double.ofScaled? n.negative n.partTaken.1
      ((n.wholeTaken.2.2 : Int) - n.partTaken.2.1 + n.written)).map .float := by
  obtain ⟨negative, whole, part, exponent⟩ := n
  cases part with
  | none =>
    cases exponent with
    | none => cases h
    | some e => obtain ⟨(_ | _), ds⟩ := e <;> rfl
  | some part =>
    cases exponent with
    | none => rfl
    | some e => obtain ⟨(_ | _), ds⟩ := e <;> rfl

/-- All digits, without the point. -/
def digits : List Char := n.whole ++ n.part.getD []

variable {n}

/-- What is kept of the digits stands for no more than what is written. -/
theorem power_le (hwhole : Double.digitsValue n.whole ≤ largest) {k : Nat}
    (hk : (n.wholeTaken.2.2 : Int) - n.partTaken.2.1 + n.written = k) :
    (n.partTaken.1 * 10 ^ k : ℚ) ≤
      Double.digitsValue n.digits * 10 ^ (n.written - (n.part.getD []).length) := by
  have htaken : n.wholeTaken = (Double.digitsValue n.whole, n.whole.length, 0) :=
    intoSignificand_of_le n.whole hwhole
  have hlength := intoSignificand_length (n.part.getD []) n.wholeTaken.1
  have hvalue := intoSignificand_mul_le (n.part.getD []) n.wholeTaken.1
  rw [← partTaken] at hlength hvalue
  have hdigits : Nat.ofDigitChars 10 (n.part.getD []) n.wholeTaken.1 = Double.digitsValue n.digits := by
    rw [Double.digitsValue_eq, digits, Nat.ofDigitChars_append, htaken, Double.digitsValue_eq]
  have hpower : (k : Int) = n.partTaken.2.2 + (n.written - (n.part.getD []).length) := by
    have hleft : n.wholeTaken.2.2 = 0 := by rw [htaken]
    omega
  rw [hdigits] at hvalue
  have hten : (0 : ℚ) ≤ 10 ^ (n.written - (n.part.getD []).length) := by positivity
  calc (n.partTaken.1 * 10 ^ k : ℚ)
      = n.partTaken.1 * 10 ^ n.partTaken.2.2 * 10 ^ (n.written - (n.part.getD []).length) := by
        rw [← zpow_natCast, hpower, zpow_add₀ (by norm_num), zpow_natCast, mul_assoc]
    _ ≤ Double.digitsValue n.digits * 10 ^ (n.written - (n.part.getD []).length) := by
        refine mul_le_mul_of_nonneg_right ?_ hten
        exact_mod_cast hvalue

/-- A numeral with a point or an exponent is in range if it is so with the slack of two steps. -/
theorem number?_isSome (hform : (n.part.isSome || n.exponent.isSome) = true)
    (hwhole : Double.digitsValue n.whole ≤ largest)
    (h : 0 < n.written → (Double.digitsValue n.digits * 10 ^ (n.written - (n.part.getD []).length) : ℚ) *
      Double.slack < 2 ^ 1024 - 2 ^ 970) : n.number?.isSome = true := by
  rw [number?_scaled n hform, Option.isSome_map]
  rcases lt_or_ge 0 ((n.wholeTaken.2.2 : Int) - n.partTaken.2.1 + n.written) with hpos | hneg
  · obtain ⟨k, hk⟩ := Int.eq_ofNat_of_zero_le hpos.le
    have hwritten : 0 < n.written := by
      have hleft : n.wholeTaken.2.2 = 0 := by rw [wholeTaken, intoSignificand_of_le n.whole hwhole]
      omega
    rw [hk]
    refine Double.ofScaled?_isSome _ (lt_of_le_of_lt ?_ (h hwritten))
    have hslack : 0 ≤ Double.slack := zero_le_one.trans Double.one_le_slack
    exact mul_le_mul_of_nonneg_right (power_le hwhole hk) hslack
  · have hkept : n.partTaken.1 ≤ largest := intoSignificand_le _ (intoSignificand_le _ (Nat.zero_le _))
    exact Double.ofScaled?_small _ (Nat.lt_of_le_of_lt hkept (by decide)) hneg

end Numeral

end BucketQuery.Json.Reading
