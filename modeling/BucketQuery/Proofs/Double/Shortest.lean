import BucketQuery.Proofs.Double.Rounding

/-! The shortest digits of a number are found.

The search goes down twenty powers of ten, and the last of them is no larger than a quarter of the number's
last place (`lastPower_le`), so some grid on the way has a decimal that reads back. What is found is not zero
and no further from the number than half its last place (`shortest_spec`). -/
namespace BucketQuery.Double

/-! ### Powers of two and of ten -/

theorem ten_pow_le {q n : Nat} (h : 10 * q ≤ 3 * n) : 10 ^ q ≤ 2 ^ n := by
  refine le_of_pow_le_pow_left₀ three_ne_zero (Nat.zero_le _) ?_
  calc (10 ^ q) ^ 3 = (10 ^ 3) ^ q := by rw [← Nat.pow_mul, ← Nat.pow_mul, Nat.mul_comm]
    _ ≤ (2 ^ 10) ^ q := Nat.pow_le_pow_left (by decide) q
    _ = 2 ^ (10 * q) := (Nat.pow_mul _ _ _).symm
    _ ≤ 2 ^ (n * 3) := Nat.pow_le_pow_right (by decide) (by omega)
    _ = (2 ^ n) ^ 3 := Nat.pow_mul _ _ _

theorem two_pow_le {q n : Nat} (h : 28 * n ≤ 93 * q) : 2 ^ n ≤ 10 ^ q := by
  refine le_of_pow_le_pow_left₀ (by decide : 93 ≠ 0) (Nat.zero_le _) ?_
  calc (2 ^ n) ^ 93 = (2 ^ 93) ^ n := by rw [← Nat.pow_mul, ← Nat.pow_mul, Nat.mul_comm]
    _ ≤ (10 ^ 28) ^ n := Nat.pow_le_pow_left (by decide) n
    _ = 10 ^ (28 * n) := (Nat.pow_mul _ _ _).symm
    _ ≤ 10 ^ (q * 93) := Nat.pow_le_pow_right (by decide) (by omega)
    _ = (10 ^ q) ^ 93 := Nat.pow_mul _ _ _

/-- The last power of ten that is tried. -/
def lastPower (m : Nat) (e : Int) : Int := (m.log2 + e + 1) * 30103 / 100000 + 1 - 19

/-- It is no larger than a quarter of the number's last place. -/
theorem lastPower_le {m : Nat} {e : Int} (hm : m < 2 ^ 53) (he : -1074 ≤ e ∧ e ≤ 971) :
    (10 : ℚ) ^ lastPower m e ≤ 2 ^ (e - 2) := by
  have hlog : m.log2 ≤ 52 := by
    rcases Nat.eq_zero_or_pos m with rfl | hpos
    · decide
    · have hlt := (Nat.log2_lt hpos.ne').mpr hm
      omega
  have hfloor : 100000 * (lastPower m e + 18) ≤ (m.log2 + e + 1) * 30103 ∧
      (m.log2 + e + 1) * 30103 < 100000 * (lastPower m e + 19) := by
    rw [lastPower]
    omega
  rcases le_or_gt 0 (lastPower m e) with hq | hq
  · obtain ⟨q, hq'⟩ := Int.eq_ofNat_of_zero_le hq
    obtain ⟨n, hn⟩ := Int.eq_ofNat_of_zero_le (show 0 ≤ e - 2 by omega)
    rw [hq', hn, zpow_natCast, zpow_natCast]
    exact_mod_cast ten_pow_le (q := q) (n := n) (by omega)
  · obtain ⟨q, hq'⟩ := Int.eq_ofNat_of_zero_le (show 0 ≤ -lastPower m e by omega)
    rw [show lastPower m e = -q by omega, zpow_neg, zpow_natCast]
    rcases le_or_gt 0 (e - 2) with hn | hn
    · calc ((10 : ℚ) ^ q)⁻¹ ≤ 1 := inv_le_one_of_one_le₀ (one_le_pow₀ (by norm_num))
        _ ≤ 2 ^ (e - 2) := one_le_zpow₀ (by norm_num) hn
    · obtain ⟨n, hn'⟩ := Int.eq_ofNat_of_zero_le (show 0 ≤ -(e - 2) by omega)
      rw [show e - 2 = -n by omega, zpow_neg, zpow_natCast]
      have hpower : (2 : ℚ) ^ n ≤ 10 ^ q := by
        exact_mod_cast two_pow_le (q := q) (n := n) (by omega)
      exact inv_anti₀ (by positivity) hpower

/-! ### The search -/

theorem pow_toNat {b : ℚ} (hb : b ≠ 0) (z : Int) : b ^ z.toNat = b ^ (-z).toNat * b ^ z := by
  rw [← zpow_natCast, ← zpow_natCast, ← zpow_add₀ hb]
  congr 1
  omega

theorem commonUnit_eq (e p : Int) :
    ((commonUnit e p).1 : ℚ) * 10 ^ p = (commonUnit e p).2 * 2 ^ (e - 2) := by
  have htwo := pow_toNat (b := 2) two_ne_zero (e - 2)
  have hten := pow_toNat (b := 10) (by norm_num) p
  rw [neg_sub] at htwo
  show ((2 ^ (e - 2).toNat * 10 ^ (-p).toNat : Nat) : ℚ) * 10 ^ p =
    ((10 ^ p.toNat * 2 ^ (2 - e).toNat : Nat) : ℚ) * 2 ^ (e - 2)
  push_cast
  rw [htwo, hten]
  ring

theorem commonUnit_le {e p : Int} (h : (10 : ℚ) ^ p ≤ 2 ^ (e - 2)) :
    (commonUnit e p).2 ≤ (commonUnit e p).1 := by
  have hten : (0 : ℚ) < 10 ^ p := by positivity
  have hle : ((commonUnit e p).2 : ℚ) * 10 ^ p ≤ (commonUnit e p).1 * 10 ^ p := by
    rw [commonUnit_eq]
    gcongr
  exact_mod_cast le_of_mul_le_mul_right hle hten

theorem commonUnit_pos (e p : Int) : 0 < (commonUnit e p).1 ∧ 0 < (commonUnit e p).2 :=
  ⟨Nat.mul_pos (Nat.pow_pos (by decide)) (Nat.pow_pos (by decide)),
    Nat.mul_pos (Nat.pow_pos (by decide)) (Nat.pow_pos (by decide))⟩

/-- A grid no wider than a quarter of the last place has something to offer. -/
theorem onGrid_of_le (tie : Tie) (m : Nat) {e p : Int} (h : (10 : ℚ) ^ p ≤ 2 ^ (e - 2)) :
    (onGrid tie m e p).isSome = true := by
  have hle := commonUnit_le h
  obtain ⟨htwo, hten⟩ := commonUnit_pos e p
  have hbelow := Nat.div_add_mod (4 * m * (commonUnit e p).1) (commonUnit e p).2
  have hrest := Nat.mod_lt (4 * m * (commonUnit e p).1) hten
  have hspan : (4 * m + 2) * (commonUnit e p).1 = 4 * m * (commonUnit e p).1 + 2 * (commonUnit e p).1 :=
    Nat.add_mul _ _ _
  have hnext : (gridBelow m e p + 1) * (commonUnit e p).2 =
      (commonUnit e p).2 * (4 * m * (commonUnit e p).1 / (commonUnit e p).2) + (commonUnit e p).2 := by
    rw [gridBelow, Nat.add_mul, Nat.one_mul, Nat.mul_comm]
  apply onGrid_isSome
  rw [pointReads, hnext]
  exact readsBack_above (by omega) (by omega)

theorem readsBack_le {m two x : Nat} {e : Int} (h : readsBack m e two x = true) :
    x ≤ (4 * m + 2) * two := by
  unfold readsBack at h
  dsimp only at h
  split_ifs at h
  all_goals
    rw [Bool.and_eq_true, decide_eq_true_eq, decide_eq_true_eq] at h
    omega

theorem le_of_readsBack {m two x : Nat} {e : Int} (h : readsBack m e two x = true) :
    4 * m * two ≤ x + 2 * two := by
  have hlow (k : Nat) (hk : k ≤ 2) : 4 * m * two ≤ (4 * m - k) * two + 2 * two := by
    rw [← Nat.add_mul]
    exact Nat.mul_le_mul_right two (by omega)
  have hone := hlow 1 (by decide)
  have htwo := hlow 2 (by decide)
  unfold readsBack at h
  dsimp only at h
  split_ifs at h
  all_goals
    rw [Bool.and_eq_true, decide_eq_true_eq, decide_eq_true_eq] at h
    omega

theorem quarter_mul (m : Nat) (e : Int) : (m * 2 ^ e : ℚ) = 4 * m * 2 ^ (e - 2) := by
  rw [zpow_sub₀ two_ne_zero]
  norm_num
  ring

theorem quarter_two (e : Int) : (2 : ℚ) ^ (e - 1) = 2 * 2 ^ (e - 2) := by
  rw [zpow_sub₀ two_ne_zero, zpow_sub₀ two_ne_zero]
  norm_num
  ring

theorem shortest_onGrid (tie : Tie) {negative : Bool} {m : Nat} {e : Int} (hheld : (finite negative m e).Held) :
    onGrid tie m e (shortest tie m e).exponent = some (shortest tie m e).digits := by
  obtain ⟨hmantissa, hexponent⟩ := hheld
  have hlast := onGrid_of_le tie m (lastPower_le hmantissa hexponent)
  have hfrom : shortest tie m e = shortestFrom tie m e 20 ((m.log2 + e + 1) * 30103 / 100000 + 1) := rfl
  obtain ⟨-, hgrid⟩ : lastPower m e ≤
      (shortestFrom tie m e 20 ((m.log2 + e + 1) * 30103 / 100000 + 1)).exponent ∧ _ :=
    shortestFrom_spec (by rw [lastPower]; omega) (by rw [lastPower]; omega) hlast
  rwa [← hfrom] at hgrid

/-- What reads back is no further from the number than half its last place. -/
theorem near_of_pointReads {m c : Nat} {e p : Int} (h : pointReads m e p c = true) :
    |(c * 10 ^ p : ℚ) - m * 2 ^ e| ≤ 2 ^ (e - 1) := by
  have hunit := commonUnit_eq e p
  have hten : (0 : ℚ) < (commonUnit e p).2 := Nat.cast_pos.mpr (commonUnit_pos e p).2
  have hhigh : (c * (commonUnit e p).2 : ℚ) ≤ (4 * m + 2) * (commonUnit e p).1 := by
    exact_mod_cast readsBack_le h
  have hlow : (4 * m * (commonUnit e p).1 : ℚ) ≤ c * (commonUnit e p).2 + 2 * (commonUnit e p).1 := by
    exact_mod_cast le_of_readsBack h
  generalize (commonUnit e p).1 = two at hunit hhigh hlow
  generalize (commonUnit e p).2 = ten at hunit hten hhigh hlow
  have hpower : (0 : ℚ) < 10 ^ p := by positivity
  rw [quarter_mul m e, quarter_two e, abs_le]
  refine ⟨le_of_mul_le_mul_right ?_ hten, le_of_mul_le_mul_right ?_ hten⟩
  · have hscaled := mul_le_mul_of_nonneg_right hlow hpower.le
    have hleft : (4 * m * two * 10 ^ p : ℚ) = 4 * m * 2 ^ (e - 2) * ten := by
      rw [mul_assoc (4 * (m : ℚ)), hunit]
      ring
    have hright : ((c * ten + 2 * two) * 10 ^ p : ℚ) = (c * 10 ^ p + 2 * 2 ^ (e - 2)) * ten := by
      rw [add_mul, mul_assoc 2 (two : ℚ), hunit]
      ring
    linarith
  · have hscaled := mul_le_mul_of_nonneg_right hhigh hpower.le
    have hright : ((4 * m + 2) * two * 10 ^ p : ℚ) = (4 * m + 2) * 2 ^ (e - 2) * ten := by
      rw [mul_assoc (4 * (m : ℚ) + 2), hunit]
      ring
    linarith

/-- **The shortest decimal of a number is found.** -/
theorem shortest_spec (tie : Tie) {negative : Bool} {m : Nat} {e : Int} (hm : 0 < m)
    (hheld : (finite negative m e).Held) :
    0 < (shortest tie m e).digits ∧
      |((shortest tie m e).digits * 10 ^ (shortest tie m e).exponent : ℚ) - m * 2 ^ e| ≤ 2 ^ (e - 1) := by
  have hgrid := shortest_onGrid tie hheld
  exact ⟨onGrid_pos hm hgrid, near_of_pointReads (onGrid_reads hgrid)⟩

/-- Below the last three numbers, what is found is in range with the slack of two steps of rounding. -/
theorem shortest_inRange (tie : Tie) {negative : Bool} {m : Nat} {e : Int} (hm : 0 < m)
    (hheld : (finite negative m e).Held) (htop : m + 4 ≤ 2 ^ 53 ∨ e < 971) :
    ((shortest tie m e).digits * 10 ^ (shortest tie m e).exponent : ℚ) * slack < 2 ^ 1024 - 2 ^ 970 := by
  obtain ⟨-, hnear⟩ := shortest_spec tie hm hheld
  have hdecimal : ((shortest tie m e).digits * 10 ^ (shortest tie m e).exponent : ℚ) ≤
      (4 * m + 2) * 2 ^ (e - 2) := by
    rw [quarter_mul m e, quarter_two e] at hnear
    linarith [(abs_le.mp hnear).2]
  obtain ⟨hmantissa, -, hmost⟩ := hheld
  have hbound : ((4 * m + 2) * 2 ^ (e - 2) : ℚ) ≤ (2 ^ 55 - 14) * 2 ^ (969 : Int) := by
    rcases htop with htop | htop
    · have hm' : (m : ℚ) + 4 ≤ 2 ^ 53 := by exact_mod_cast htop
      have hpower : (2 : ℚ) ^ (e - 2) ≤ 2 ^ (969 : Int) :=
        zpow_le_zpow_right₀ (by norm_num) (by have : e ≤ 971 := hmost; omega)
      have hfour : (4 * m + 2 : ℚ) ≤ 2 ^ 55 - 14 := by linarith
      exact mul_le_mul hfour hpower (by positivity) (by norm_num)
    · have hm' : (m : ℚ) < 2 ^ 53 := by exact_mod_cast hmantissa
      have hpower : (2 : ℚ) ^ (e - 2) ≤ 2 ^ (968 : Int) :=
        zpow_le_zpow_right₀ (by norm_num) (by omega)
      have hfour : (4 * m + 2 : ℚ) ≤ 2 * (2 ^ 55 - 14) := by linarith
      calc ((4 * m + 2) * 2 ^ (e - 2) : ℚ) ≤ 2 * (2 ^ 55 - 14) * 2 ^ (968 : Int) :=
            mul_le_mul hfour hpower (by positivity) (by norm_num)
        _ = (2 ^ 55 - 14) * 2 ^ (969 : Int) := by
            rw [show (969 : Int) = 968 + 1 by norm_num, zpow_add_one₀ two_ne_zero]
            ring
  have hslack : (2 ^ 55 - 14) * slack < 2 ^ 55 - 2 := by norm_num [slack]
  have hpositive : (0 : ℚ) < slack := lt_of_lt_of_le one_pos one_le_slack
  calc ((shortest tie m e).digits * 10 ^ (shortest tie m e).exponent : ℚ) * slack
      ≤ (2 ^ 55 - 14) * 2 ^ (969 : Int) * slack := by
        have hle := hdecimal.trans hbound
        gcongr
    _ = (2 ^ 55 - 14) * slack * 2 ^ (969 : Int) := by ring
    _ < (2 ^ 55 - 2) * 2 ^ (969 : Int) := by gcongr
    _ = 2 ^ 1024 - 2 ^ 970 := by
      rw [sub_mul, zpow_ofNat, ← pow_add, ← pow_succ']

end BucketQuery.Double
