import BucketQuery.Double.Reading
import BucketQuery.Proofs.Double.Whole
import Mathlib.Algebra.Order.Field.Power
import Mathlib.Algebra.Order.Field.Rat
import Mathlib.Data.Rat.Cast.Order
import Mathlib.Tactic.FieldSimp
import Mathlib.Tactic.GCongr
import Mathlib.Tactic.Linarith
import Mathlib.Tactic.Positivity
import Mathlib.Tactic.Ring

/-! Rounding to binary64.

What is rounded has a mantissa of 53 binary digits and an exponent in range, or is infinite
(`nearest_held`). It is infinite only from half a unit above the largest number on (`nearest_isFinite`), and
above the smallest normal number it is never larger than what was rounded by more than one part in
`2 ^ 53` (`nearest_le`). -/
namespace BucketQuery.Double

/-- A number that the format has. -/
def Held : Double → Prop
  | finite _ m e => m < 2 ^ 53 ∧ binary64.least ≤ e ∧ e ≤ binary64.most
  | infinite _ | nan => True

section Scaled
variable {num den : Nat}

theorem scaled_den (num : Nat) {den : Nat} (hden : 0 < den) (e : Int) : 0 < (scaled num den e).2 := by
  cases e with
  | ofNat k => exact Nat.mul_pos hden (Nat.pow_pos (by decide))
  | negSucc k => exact hden

theorem scaled_eq (num den : Nat) (e : Int) :
    ((scaled num den e).1 : ℚ) / (scaled num den e).2 = num / den / 2 ^ e := by
  cases e with
  | ofNat k =>
    show (num : ℚ) / ((den * 2 ^ k : Nat) : ℚ) = num / den / 2 ^ (k : Int)
    push_cast
    rw [zpow_natCast, div_div]
  | negSucc k =>
    show (((num * 2 ^ (k + 1) : Nat) : ℚ)) / den = num / den / 2 ^ (Int.negSucc k)
    rw [zpow_negSucc]
    push_cast
    field_simp

theorem scaled_lt_iff (hden : 0 < den) (e : Int) :
    (scaled num den e).1 < (scaled num den e).2 ↔ (num / den : ℚ) < 2 ^ e := by
  have hpos : (0 : ℚ) < (scaled num den e).2 := Nat.cast_pos.mpr (scaled_den num hden e)
  have htwo : (0 : ℚ) < 2 ^ e := zpow_pos (by norm_num) e
  rw [← Nat.cast_lt (α := ℚ), ← div_lt_one hpos, scaled_eq, div_lt_one htwo]

theorem log2_bounds {n : Nat} (h : 0 < n) :
    (2 : ℚ) ^ (n.log2 : Int) ≤ n ∧ (n : ℚ) < 2 ^ ((n.log2 : Int) + 1) := by
  have hlow : 2 ^ n.log2 ≤ n := Nat.log2_self_le (Nat.ne_of_gt h)
  have hhigh : n < 2 ^ (n.log2 + 1) := Nat.lt_log2_self
  constructor
  · rw [zpow_natCast]
    exact_mod_cast hlow
  · rw [← Nat.cast_succ, zpow_natCast]
    exact_mod_cast hhigh

/-- The place of the leading digit is that of the power of two below. -/
theorem leading_spec (hnum : 0 < num) (hden : 0 < den) :
    (2 : ℚ) ^ leading num den ≤ num / den ∧ (num / den : ℚ) < 2 ^ (leading num den + 1) := by
  obtain ⟨hnumLow, hnumHigh⟩ := log2_bounds hnum
  obtain ⟨hdenLow, hdenHigh⟩ := log2_bounds hden
  have hpos : (0 : ℚ) < den := Nat.cast_pos.mpr hden
  have htwo : (2 : ℚ) ≠ 0 := by norm_num
  have hleading : leading num den =
      if (num / den : ℚ) < 2 ^ ((num.log2 : Int) - den.log2) then (num.log2 : Int) - den.log2 - 1
      else (num.log2 : Int) - den.log2 := by
    rw [leading]
    exact if_congr (scaled_lt_iff hden _) rfl rfl
  rw [hleading]
  split_ifs with hlt
  · refine ⟨?_, by rwa [sub_add_cancel]⟩
    rw [le_div_iff₀ hpos]
    calc (2 : ℚ) ^ ((num.log2 : Int) - den.log2 - 1) * den
        ≤ 2 ^ ((num.log2 : Int) - den.log2 - 1) * 2 ^ ((den.log2 : Int) + 1) := by gcongr
      _ = 2 ^ (num.log2 : Int) := by rw [← zpow_add₀ htwo]; ring_nf
      _ ≤ num := hnumLow
  · refine ⟨not_lt.mp hlt, ?_⟩
    rw [div_lt_iff₀ hpos]
    calc (num : ℚ) < 2 ^ ((num.log2 : Int) + 1) := hnumHigh
      _ = 2 ^ ((num.log2 : Int) - den.log2 + 1) * 2 ^ (den.log2 : Int) := by
        rw [← zpow_add₀ htwo]; ring_nf
      _ ≤ 2 ^ ((num.log2 : Int) - den.log2 + 1) * den := by gcongr

end Scaled

/-! ### Nearest -/

section Nearest
variable {num den : Nat}

/-- The unit of what is nearest, before a carry. -/
def unit (num den : Nat) : Int := max (leading num den - 52) (-1074)

/-- How many units are nearest. -/
def units (num den : Nat) : Nat :=
  roundDiv (scaled num den (unit num den)).1 (scaled num den (unit num den)).2

theorem mul_roundDiv_le {n d : Nat} (hd : 0 < d) : 2 * (roundDiv n d * d) ≤ 2 * n + d := by
  have hn := Nat.div_add_mod n d
  have hr := Nat.mod_lt n hd
  have hup : (n / d + 1) * d = d * (n / d) + d := by
    rw [Nat.add_mul, Nat.one_mul, Nat.mul_comm]
  have hdown : n / d * d = d * (n / d) := Nat.mul_comm _ _
  rw [roundDiv]
  split_ifs
  · omega
  · omega
  · rcases Nat.mod_two_eq_zero_or_one (n / d) with heven | hodd
    · rw [heven, Nat.add_zero]
      omega
    · rw [hodd]
      omega

theorem nearest_eq (negative : Bool) (hnum : num ≠ 0) :
    nearest binary64 negative num den =
      if units num den = 2 ^ 53 then
        if 971 < unit num den + 1 then .infinite negative else .finite negative (2 ^ 52) (unit num den + 1)
      else
        if 971 < unit num den then .infinite negative
        else .finite negative (units num den) (unit num den) := by
  rw [nearest, if_neg hnum]
  show (let r := if units num den = Nat.pow 2 53 then (Nat.pow 2 52, unit num den + 1)
    else (units num den, unit num den); if 971 < r.2 then _ else Double.finite negative r.1 r.2) = _
  by_cases hcarry : units num den = 2 ^ 53
  · rw [if_pos hcarry]
    simp only [Nat.pow_eq, if_pos hcarry]
  · rw [if_neg hcarry]
    simp only [Nat.pow_eq, if_neg hcarry]

/-- A unit is small enough for 53 binary digits. -/
theorem scaled_unit_lt (hnum : 0 < num) (hden : 0 < den) :
    ((scaled num den (unit num den)).1 : ℚ) / (scaled num den (unit num den)).2 < 2 ^ 53 := by
  have hunit : leading num den - 52 ≤ unit num den := le_max_left _ _
  have htwo : (0 : ℚ) < 2 ^ unit num den := by positivity
  rw [scaled_eq, div_lt_iff₀ htwo]
  calc (num / den : ℚ) < 2 ^ (leading num den + 1) := (leading_spec hnum hden).2
    _ ≤ 2 ^ (53 + unit num den) := by
      apply zpow_le_zpow_right₀ (by norm_num)
      omega
    _ = 2 ^ 53 * 2 ^ unit num den := by
      rw [zpow_add₀ (by norm_num)]
      norm_num

theorem units_le {num : Nat} (hnum : 0 < num) (den : Nat) : units num den ≤ 2 ^ 53 := by
  have hround := (roundDiv_bounds (scaled num den (unit num den)).1 (scaled num den (unit num den)).2).2
  rw [units]
  rcases Nat.eq_zero_or_pos den with rfl | hden
  · have hzero (e : Int) : (scaled num 0 e).2 = 0 := by
      cases e with
      | ofNat k => exact Nat.zero_mul _
      | negSucc k => rfl
    rw [hzero, Nat.div_zero] at hround
    rw [hzero]
    omega
  have hpos := scaled_den num hden (unit num den)
  have hlt := scaled_unit_lt hnum hden
  rw [div_lt_iff₀ (Nat.cast_pos.mpr hpos)] at hlt
  have hnat : (scaled num den (unit num den)).1 < 2 ^ 53 * (scaled num den (unit num den)).2 := by
    exact_mod_cast hlt
  have hquotient := Nat.div_lt_of_lt_mul (Nat.mul_comm _ _ ▸ hnat)
  omega

/-- Rounding adds half a unit at most. -/
theorem units_mul_le (num : Nat) {den : Nat} (hden : 0 < den) :
    (units num den * 2 ^ unit num den : ℚ) ≤ num / den + 2 ^ (unit num den - 1) := by
  have hpos : (0 : ℚ) < (scaled num den (unit num den)).2 :=
    Nat.cast_pos.mpr (scaled_den num hden (unit num den))
  have htwo : (0 : ℚ) < 2 ^ unit num den := by positivity
  have hround : (2 * (units num den * (scaled num den (unit num den)).2) : ℚ) ≤
      2 * (scaled num den (unit num den)).1 + (scaled num den (unit num den)).2 := by
    exact_mod_cast mul_roundDiv_le (scaled_den num hden (unit num den))
  have hunits : (units num den : ℚ) ≤
      (scaled num den (unit num den)).1 / (scaled num den (unit num den)).2 + 1 / 2 := by
    rw [div_add_div _ _ hpos.ne' two_ne_zero, le_div_iff₀ (by positivity)]
    linarith
  rw [scaled_eq] at hunits
  have hhalf : (2 : ℚ) ^ (unit num den - 1) = 1 / 2 * 2 ^ unit num den := by
    rw [zpow_sub_one₀ two_ne_zero]
    ring
  calc (units num den * 2 ^ unit num den : ℚ)
      ≤ (num / den / 2 ^ unit num den + 1 / 2) * 2 ^ unit num den := by gcongr
    _ = num / den + 2 ^ (unit num den - 1) := by
      rw [hhalf, add_mul, div_mul_cancel₀ _ htwo.ne']

/-- Half a unit is no more than one part in `2 ^ 53` of a number that is normal. -/
theorem half_unit_le (hnum : 0 < num) (hden : 0 < den) (h : (1 : ℚ) ≤ num / den) :
    (2 : ℚ) ^ (unit num den - 1) ≤ num / den / 2 ^ 53 := by
  obtain ⟨hlow, hhigh⟩ := leading_spec hnum hden
  have hplace : 0 < leading num den + 1 := by
    rw [← zpow_lt_zpow_iff_right₀ (by norm_num : (1 : ℚ) < 2), zpow_zero]
    exact lt_of_le_of_lt h hhigh
  have hunit : unit num den = leading num den - 52 := max_eq_left (by omega)
  have hfraction : (2 : ℚ) ^ (unit num den - 1) = 2 ^ leading num den / 2 ^ 53 := by
    rw [hunit, show leading num den - 52 - 1 = leading num den - 53 by ring,
      zpow_sub₀ two_ne_zero]
    norm_num
  rw [hfraction]
  gcongr

end Nearest

/-- **What is nearest is a number of the format.** -/
theorem nearest_held (negative : Bool) (num den : Nat) :
    (nearest binary64 negative num den).Held := by
  have hleast : (-1074 : Int) ≤ unit num den := le_max_right _ _
  rcases Nat.eq_zero_or_pos num with rfl | hnum
  · exact ⟨by decide, by decide, by decide⟩
  · have hunits := units_le hnum den
    rw [nearest_eq negative hnum.ne']
    split_ifs with hcarry hover hover
    · trivial
    · exact ⟨by decide, show (-1074 : Int) ≤ _ by omega, show _ ≤ (971 : Int) by omega⟩
    · trivial
    · exact ⟨by omega, hleast, show _ ≤ (971 : Int) by omega⟩

/-- What is nearest is hardly more. -/
theorem nearest_le {negative s : Bool} {num den m : Nat} {e : Int} (hden : 0 < den)
    (h : (1 : ℚ) ≤ num / den) (hnearest : nearest binary64 negative num den = .finite s m e) :
    (m * 2 ^ e : ℚ) ≤ num / den * (1 + 1 / 2 ^ 53) := by
  have hnum : 0 < num := by
    rcases Nat.eq_zero_or_pos num with rfl | hnum
    · norm_num at h
    · exact hnum
  have hvalue : (m * 2 ^ e : ℚ) = units num den * 2 ^ unit num den := by
    rw [nearest_eq negative hnum.ne'] at hnearest
    split_ifs at hnearest with hcarry
    · cases hnearest
      rw [hcarry, zpow_add_one₀ two_ne_zero]
      push_cast
      ring
    · cases hnearest
      rfl
  calc (m * 2 ^ e : ℚ) = units num den * 2 ^ unit num den := hvalue
    _ ≤ num / den + 2 ^ (unit num den - 1) := units_mul_le num hden
    _ ≤ num / den + num / den / 2 ^ 53 := by
      have hhalf := half_unit_le hnum hden h
      gcongr
    _ = num / den * (1 + 1 / 2 ^ 53) := by ring

/-- What lies below the half unit above the largest number is not infinite. -/
theorem nearest_isFinite (negative : Bool) {num den : Nat} (hden : 0 < den)
    (h : (num / den : ℚ) < 2 ^ 1024 - 2 ^ 970) :
    (nearest binary64 negative num den).isFinite = true := by
  rcases Nat.eq_zero_or_pos num with rfl | hnum
  · rfl
  have hplace : leading num den < 1024 := by
    rw [← zpow_lt_zpow_iff_right₀ (by norm_num : (1 : ℚ) < 2)]
    calc (2 : ℚ) ^ leading num den ≤ num / den := (leading_spec hnum hden).1
      _ < 2 ^ 1024 - 2 ^ 970 := h
      _ < 2 ^ (1024 : Int) := by norm_num
  have hunit : unit num den ≤ 971 := max_le (by omega) (by decide)
  rw [nearest_eq negative hnum.ne']
  split_ifs with hcarry hover hover
  · -- A carry beyond the largest unit would make the number as large as the half unit above it.
    have hmost : unit num den = 971 := by omega
    have hround := units_mul_le num hden
    have hpower : ((2 ^ 53 : Nat) : ℚ) * 2 ^ (971 : Int) = 2 ^ 1024 := by
      rw [zpow_ofNat, Nat.cast_pow, Nat.cast_ofNat, ← pow_add]
    rw [hcarry, hmost, hpower, show (971 - 1 : Int) = 970 from rfl, zpow_ofNat] at hround
    exact absurd h (not_lt.mpr (sub_le_iff_le_add.mpr hround))
  · rfl
  · omega
  · rfl

/-! ### Steps in powers of ten -/

theorem times_held (x y : Double) : (x.times y).Held := by
  rw [times.eq_def]
  split
  · exact nearest_held _ _ _
  · trivial

theorem dividedBy_held (x y : Double) : (x.dividedBy y).Held := by
  rw [dividedBy.eq_def]
  split
  · exact nearest_held _ _ _
  · trivial

theorem shrink_held {x : Double} (hx : x.Held) (k : Nat) : (shrink x k).Held := by
  induction k using Nat.strongRecOn generalizing x with
  | ind k ih =>
    rw [shrink]
    split_ifs with hlast hzero
    · exact dividedBy_held _ _
    · exact hx
    · exact ih (k - 308) (by omega) (dividedBy_held _ _)

theorem ofScaled?_held {negative : Bool} {significand : Nat} {exponent : Int} {x : Double}
    (h : ofScaled? negative significand exponent = some x) : x.Held := by
  rw [ofScaled?] at h
  dsimp only at h
  split_ifs at h
  · exact Option.some.inj h ▸ shrink_held (nearest_held _ _ _) _
  · exact Option.some.inj h ▸ nearest_held _ _ _
  · exact Option.some.inj h ▸ times_held _ _

/-- A decimal with an exponent below zero is always in range. -/
theorem ofScaled?_below (negative : Bool) (significand : Nat) {exponent : Int} (h : exponent < 0) :
    (ofScaled? negative significand exponent).isSome = true := by
  rw [ofScaled?]
  dsimp only
  rw [if_pos h]
  rfl

theorem fraction_eq (m : Nat) (e : Int) :
    0 < (fraction m e).2 ∧ ((fraction m e).1 : ℚ) / (fraction m e).2 = m * 2 ^ e := by
  cases e with
  | ofNat k =>
    refine ⟨Nat.one_pos, ?_⟩
    show ((m * 2 ^ k : Nat) : ℚ) / ((1 : Nat) : ℚ) = m * 2 ^ (k : Int)
    push_cast
    rw [zpow_natCast, div_one]
  | negSucc k =>
    refine ⟨Nat.pow_pos (by decide), ?_⟩
    show (m : ℚ) / ((2 ^ (k + 1) : Nat) : ℚ) = m * 2 ^ (Int.negSucc k)
    rw [zpow_negSucc]
    push_cast
    rfl

theorem isFinite_cases {x : Double} (h : x.isFinite = true) : ∃ s m e, x = .finite s m e := by
  cases x with
  | finite s m e => exact ⟨s, m, e, rfl⟩
  | infinite | nan => cases h

/-- Two steps of rounding, each of which adds one part in `2 ^ 53` at most. -/
def slack : ℚ := (1 + 1 / 2 ^ 53) * (1 + 1 / 2 ^ 53)

theorem one_le_slack : 1 ≤ slack := by norm_num [slack]

/-- The product of two numbers that were rounded, rounded again, is in range if the slack is. -/
theorem times_isFinite {s t : Bool} {m n : Nat} {e f : Int} {a b : ℚ}
    (hm : (m * 2 ^ e : ℚ) ≤ a * (1 + 1 / 2 ^ 53)) (hn : (n * 2 ^ f : ℚ) ≤ b * (1 + 1 / 2 ^ 53))
    (h : a * b * slack < 2 ^ 1024 - 2 ^ 970) :
    ((finite s m e).times (finite t n f)).isFinite = true := by
  obtain ⟨hden, hvalue⟩ := fraction_eq (m * n) (e + f)
  refine nearest_isFinite _ hden ?_
  calc ((fraction (m * n) (e + f)).1 : ℚ) / (fraction (m * n) (e + f)).2
      = (m * 2 ^ e) * (n * 2 ^ f) := by
        rw [hvalue, zpow_add₀ two_ne_zero]
        push_cast
        ring
    _ ≤ (a * (1 + 1 / 2 ^ 53)) * (b * (1 + 1 / 2 ^ 53)) := by
        have hpositive : (0 : ℚ) ≤ m * 2 ^ e := by positivity
        exact mul_le_mul hm hn (by positivity) (hpositive.trans hm)
    _ = a * b * slack := by
        rw [slack]
        ring
    _ < 2 ^ 1024 - 2 ^ 970 := h

/-- A decimal is in range if it is so with the slack of two steps. -/
theorem ofScaled?_isSome (negative : Bool) {significand k : Nat}
    (h : (significand * 10 ^ k : ℚ) * slack < 2 ^ 1024 - 2 ^ 970) :
    (ofScaled? negative significand k).isSome = true := by
  have hsign : ¬ (k : Int) < 0 := by omega
  rw [ofScaled?]
  dsimp only
  rw [if_neg hsign]
  rcases Nat.eq_zero_or_pos significand with rfl | hpos
  · rfl
  have hone : (1 : ℚ) ≤ significand := by exact_mod_cast hpos
  have hten : (1 : ℚ) ≤ 10 ^ k := one_le_pow₀ (by norm_num)
  have hproduct : (significand * 10 ^ k : ℚ) < 2 ^ 1024 - 2 ^ 970 :=
    lt_of_le_of_lt (le_mul_of_one_le_right (by positivity) one_le_slack) h
  have hsignificand : ((significand : ℚ) / (1 : Nat)) < 2 ^ 1024 - 2 ^ 970 := by
    rw [Nat.cast_one, div_one]
    exact lt_of_le_of_lt (le_mul_of_one_le_right (by positivity) hten) hproduct
  have hpower : (((10 ^ k : Nat) : ℚ) / (1 : Nat)) < 2 ^ 1024 - 2 ^ 970 := by
    rw [Nat.cast_one, div_one, Nat.cast_pow, Nat.cast_ofNat]
    exact lt_of_le_of_lt (le_mul_of_one_le_left (by positivity) hone) hproduct
  have hk : ¬ (308 : Int) < k := by
    intro hk
    have hlarge : (2 ^ 1024 : ℚ) < 10 ^ 309 := by exact_mod_cast (by decide +kernel : 2 ^ 1024 < 10 ^ 309)
    have hgrows : (10 : ℚ) ^ 309 ≤ 10 ^ k := pow_le_pow_right₀ (by norm_num) (by omega)
    have hbelow : (10 : ℚ) ^ k < 2 ^ 1024 - 2 ^ 970 :=
      lt_of_le_of_lt (le_mul_of_one_le_left (by positivity) hone) hproduct
    have hpositive : (0 : ℚ) < 2 ^ 970 := by positivity
    exact absurd (hgrows.trans_lt (hbelow.trans (sub_lt_self _ hpositive))) (not_lt.mpr hlarge.le)
  obtain ⟨s, m, e, hx⟩ := isFinite_cases (nearest_isFinite negative Nat.one_pos hsignificand)
  obtain ⟨t, n, f, hy⟩ := isFinite_cases (nearest_isFinite false Nat.one_pos hpower)
  have hm := nearest_le Nat.one_pos (by rwa [Nat.cast_one, div_one]) hx
  have hn := nearest_le Nat.one_pos (by rwa [Nat.cast_one, div_one, Nat.cast_pow, Nat.cast_ofNat]) hy
  rw [Nat.cast_one, div_one] at hm hn
  rw [Nat.cast_pow, Nat.cast_ofNat] at hn
  have hfinite : ((finite s m e).times (finite t n f)).isFinite = true := times_isFinite hm hn h
  have hten' : tenTo (k : Int).toNat = finite t n f := hy
  rw [hx, hten', if_neg hk, if_pos hfinite]
  split_ifs <;> rfl

/-- A significand of 64 bits is in range without a power of ten. -/
theorem ofScaled?_small (negative : Bool) {significand : Nat} {exponent : Int} (h : significand < 2 ^ 64)
    (hexponent : exponent ≤ 0) : (ofScaled? negative significand exponent).isSome = true := by
  rcases hexponent.lt_or_eq with hneg | rfl
  · exact ofScaled?_below negative significand hneg
  · have hsignificand : (significand : ℚ) < 2 ^ 64 := by exact_mod_cast h
    have hslack : slack < 2 := by norm_num [slack]
    have hroom : (2 ^ 64 * 2 + 2 ^ 970 : ℚ) < 2 ^ 1024 := by
      exact_mod_cast (by decide +kernel : 2 ^ 64 * 2 + 2 ^ 970 < 2 ^ 1024)
    refine ofScaled?_isSome (k := 0) negative ?_
    calc (significand * 10 ^ 0 : ℚ) * slack ≤ 2 ^ 64 * 2 := by
          rw [pow_zero, mul_one]
          exact mul_le_mul hsignificand.le hslack.le (zero_le_one.trans one_le_slack) (by norm_num)
      _ < 2 ^ 1024 - 2 ^ 970 := lt_sub_iff_add_lt.mpr hroom

end BucketQuery.Double
