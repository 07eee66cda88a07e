import BucketQuery.Proofs.Double.Layout
import Mathlib.Algebra.Field.Rat
import Mathlib.Tactic.NormNum

/-! Whole numbers of 64 bits as binary64 numbers.

From `2 ^ 63` to `2 ^ 64` a binary64 number has 53 binary digits for 64, so a whole number there becomes the
nearest multiple of 2048 (`ofNat_eq`). Its literal is whole as well, and its shortest digits end in front of
the hundreds: among the multiples of a thousand there is always one that reads back (`literal_whole`). -/
namespace BucketQuery.Double

/-- The number that a finite number is exactly. -/
def rational? : Double → Option Rat
  | finite negative m e => some ((if negative then -1 else 1) * m * 2 ^ e)
  | _ => none

/-! ### Rounding -/

theorem roundDiv_bounds (n den : Nat) : n / den ≤ roundDiv n den ∧ roundDiv n den ≤ n / den + 1 := by
  rw [roundDiv]
  split_ifs <;> omega

theorem mul_roundDiv_eq_iff {n den : Nat} (h : 0 < den) : den * roundDiv n den = n ↔ den ∣ n := by
  constructor
  · exact fun heq => ⟨_, heq.symm⟩
  · rintro ⟨k, rfl⟩
    rw [roundDiv]
    simp only [Nat.mul_mod_right, Nat.mul_zero, if_pos h, Nat.mul_div_cancel_left _ h]

/-- `2048 * k` as it is held, for `k` of 53 binary digits or the next power of two. -/
def ofMultiple (k : Nat) : Double :=
  if k = Nat.pow 2 53 then .finite false (Nat.pow 2 52) 12 else .finite false k 11

theorem ofNat_eq {n : Nat} (h : 2 ^ 63 ≤ n ∧ n < 2 ^ 64) : ofNat n = ofMultiple (roundDiv n 2048) := by
  have hne : n ≠ 0 := by omega
  have hleading : leading n 1 = 63 := by
    have hlog : n.log2 = 63 := (Nat.log2_eq_iff hne).mpr h
    have hone : Nat.log2 1 = 0 := by decide
    have hscaled : scaled n 1 ((63 : Nat) - (0 : Nat) : Int) = (n, 1 * Nat.pow 2 63) := rfl
    have hlarge : ¬ n < 1 * Nat.pow 2 63 := by
      show ¬ n < 1 * 2 ^ 63
      omega
    simp only [leading, hlog, hone, hscaled, if_neg hlarge]
    rfl
  have hprecision : binary64.precision = 53 := rfl
  have hexponent : max (leading n 1 - (((53 : Nat) : Int) - 1)) binary64.least = 11 := by
    rw [hleading]
    decide
  have hscaled : scaled n 1 11 = (n, 2048) := rfl
  have hcarried : ¬ binary64.most < 11 + 1 := by decide
  have hmost : ¬ binary64.most < 11 := by decide
  unfold ofNat nearest ofMultiple
  simp only [if_neg hne, hprecision, hexponent, hscaled]
  by_cases hcarry : roundDiv n 2048 = Nat.pow 2 53
  · simp only [if_pos hcarry, if_neg hcarried]
    rfl
  · simp only [if_neg hcarry, if_neg hmost]

theorem ofMultiple_rational (k : Nat) : (ofMultiple k).rational? = some ((2048 * k : Nat) : Rat) := by
  rw [ofMultiple]
  split_ifs with h
  · subst h
    rw [rational?, Option.some.injEq, if_neg Bool.false_ne_true]
    norm_num
  · rw [rational?, Option.some.injEq, if_neg Bool.false_ne_true]
    push_cast
    norm_num [mul_comm]

/-! ### The shortest digits -/

section Grids
variable {tie : Tie} {m two x c : Nat} {e p : Int}

/-- `x` units, of which `two` are a quarter of the last place of `m * 2 ^ e`, read back as that number. -/
def readsBack (m : Nat) (e : Int) (two x : Nat) : Bool :=
  let low := (4 * m - if m == Nat.pow 2 52 && e != binary64.least then 1 else 2) * two
  let high := (4 * m + 2) * two
  if m % 2 == 0 then low ≤ x && x ≤ high else low < x && x < high

theorem not_readsBack_zero (hm : 0 < m) (htwo : 0 < two) : readsBack m e two 0 = false := by
  have hlow : 0 < (4 * m - if m == Nat.pow 2 52 && e != binary64.least then 1 else 2) * two := by
    refine Nat.mul_pos ?_ htwo
    split <;> omega
  simp only [readsBack, Nat.not_le.mpr hlow, Nat.not_lt_zero, decide_false, Bool.false_and, ite_self]

/-- A little more than the number reads back as it. -/
theorem readsBack_above (hlow : 4 * m * two < x) (hhigh : x < (4 * m + 2) * two) :
    readsBack m e two x = true := by
  have hbelow : (4 * m - if m == Nat.pow 2 52 && e != binary64.least then 1 else 2) * two < x :=
    Nat.lt_of_le_of_lt (Nat.mul_le_mul_right two (Nat.sub_le _ _)) hlow
  simp only [readsBack, Nat.le_of_lt hbelow, Nat.le_of_lt hhigh, hbelow, hhigh, decide_true, Bool.and_self,
    ite_self]

/-- The grid's last point below the number, counted in points. -/
def gridBelow (m : Nat) (e p : Int) : Nat := 4 * m * (commonUnit e p).1 / (commonUnit e p).2

/-- A point of the grid reads back. -/
def pointReads (m : Nat) (e p : Int) (c : Nat) : Bool :=
  readsBack m e (commonUnit e p).1 (c * (commonUnit e p).2)

theorem onGrid_eq (tie : Tie) (m : Nat) (e p : Int) :
    onGrid tie m e p =
      match pointReads m e p (gridBelow m e p), pointReads m e p (gridBelow m e p + 1) with
      | false, false => none
      | true, false => some (gridBelow m e p)
      | false, true => some (gridBelow m e p + 1)
      | true, true =>
        let r := 4 * m * (commonUnit e p).1 % (commonUnit e p).2
        if 2 * r < (commonUnit e p).2 then some (gridBelow m e p)
        else if (commonUnit e p).2 < 2 * r then some (gridBelow m e p + 1)
        else match tie with
          | .up => some (gridBelow m e p + 1)
          | .even => some (gridBelow m e p + gridBelow m e p % 2) := rfl

/-- What a grid offers reads back. -/
theorem onGrid_reads (h : onGrid tie m e p = some c) : pointReads m e p c = true := by
  rw [onGrid_eq] at h
  cases hbelow : pointReads m e p (gridBelow m e p) with
  | false =>
    cases habove : pointReads m e p (gridBelow m e p + 1) with
    | false =>
      rw [hbelow, habove] at h
      cases h
    | true =>
      rw [hbelow, habove] at h
      exact Option.some.inj h ▸ habove
  | true =>
    cases habove : pointReads m e p (gridBelow m e p + 1) with
    | false =>
      rw [hbelow, habove] at h
      exact Option.some.inj h ▸ hbelow
    | true =>
      -- Both neighbours read back, and the nearer one is taken, or by the tie one of them.
      have hc : c = gridBelow m e p ∨ c = gridBelow m e p + 1 := by
        rw [hbelow, habove] at h
        simp only at h
        split_ifs at h
        · exact .inl (Option.some.inj h).symm
        · exact .inr (Option.some.inj h).symm
        · cases tie with
          | even =>
            have hc := Option.some.inj h
            omega
          | up => exact .inr (Option.some.inj h).symm
      rcases hc with rfl | rfl
      · exact hbelow
      · exact habove

theorem onGrid_pos (hm : 0 < m) (h : onGrid tie m e p = some c) : 0 < c := by
  have hreads := onGrid_reads h
  refine Nat.pos_of_ne_zero ?_
  rintro rfl
  have htwo : 0 < (commonUnit e p).1 :=
    Nat.mul_pos (Nat.pow_pos (show 0 < 2 by decide)) (Nat.pow_pos (show 0 < 10 by decide))
  rw [pointReads, Nat.zero_mul, not_readsBack_zero hm htwo] at hreads
  cases hreads

/-- A grid has something to offer if the point above the number reads back. -/
theorem onGrid_isSome (h : pointReads m e p (gridBelow m e p + 1) = true) :
    (onGrid tie m e p).isSome = true := by
  rw [onGrid_eq, h]
  cases pointReads m e p (gridBelow m e p) with
  | false => rfl
  | true =>
    simp only
    split_ifs
    · rfl
    · rfl
    · cases tie <;> rfl

/-- The multiples of a thousand are close enough to have one that reads back. -/
theorem onGrid_thousands (he : 11 ≤ e) : (onGrid tie m e 3).isSome = true := by
  have hten : (commonUnit e 3).2 = 1000 := by
    have hexponent : (2 - e).toNat = 0 := by omega
    show Nat.pow 10 3 * Nat.pow 2 (2 - e).toNat = 1000
    rw [hexponent]
  have htwo : 512 ≤ (commonUnit e 3).1 := by
    have hpow : 2 ^ 9 ≤ 2 ^ (e - 2).toNat := Nat.pow_le_pow_right (by decide) (by omega)
    show 512 ≤ 2 ^ (e - 2).toNat * 1
    omega
  apply onGrid_isSome
  rw [pointReads, gridBelow, hten]
  have hspan : (4 * m + 2) * (commonUnit e 3).1 = 4 * m * (commonUnit e 3).1 + 2 * (commonUnit e 3).1 :=
    Nat.add_mul _ _ _
  refine readsBack_above ?_ ?_
  · omega
  · omega

/-- The search ends on a grid that offers something, if there is one in reach, and not below the first. -/
theorem shortestFrom_spec {steps : Nat} {q : Int} (hq : p - steps < q) (hp : q ≤ p)
    (h : (onGrid tie m e q).isSome = true) :
    q ≤ (shortestFrom tie m e steps p).exponent ∧
      onGrid tie m e (shortestFrom tie m e steps p).exponent = some (shortestFrom tie m e steps p).digits := by
  induction steps generalizing p with
  | zero => omega
  | succ steps ih =>
    rw [shortestFrom]
    cases hgrid : onGrid tie m e p with
    | some c => exact ⟨hp, hgrid⟩
    | none =>
      have hne : q ≠ p := by
        rintro rfl
        rw [hgrid] at h
        cases h
      exact ih (by omega) (by omega)

end Grids

/-! ### Literals -/

/-- Zeros behind the digits of a number are the digits of its multiple. -/
theorem toDigits_append_zeros {n : Nat} (hn : 0 < n) (k : Nat) :
    Nat.toDigits 10 n ++ zeros k = Nat.toDigits 10 (n * 10 ^ k) := by
  induction k with
  | zero => rw [zeros, List.replicate_zero, List.append_nil, Nat.pow_zero, Nat.mul_one]
  | succ k ih =>
    have hnext := Nat.toDigits_append_toDigits (b := 10) (d := 0) (by decide)
      (Nat.mul_pos hn (Nat.pow_pos (n := k) (show 0 < 10 by decide))) (by decide)
    rw [zeros, List.replicate_succ', ← List.append_assoc, ← zeros, ih]
    refine hnext.trans (congrArg (Nat.toDigits 10) ?_)
    rw [Nat.add_zero, Nat.pow_succ, ← Nat.mul_assoc n, Nat.mul_comm 10]

/-- The search from a power of ten above the number ends among the thousands at the latest. -/
theorem shortest_thousands {m : Nat} (hm : m.log2 = 52) :
    0 < (shortest .up m 11).digits ∧ 3 ≤ (shortest .up m 11).exponent ∧
      pointReads m 11 (shortest .up m 11).exponent (shortest .up m 11).digits = true := by
  have hpos : 0 < m := by
    refine Nat.pos_of_ne_zero ?_
    rintro rfl
    exact absurd hm (by decide)
  have hstart : ((m.log2 + 11 + 1) * 30103 / 100000 + 1 : Int) = 20 := by
    rw [hm]
    decide
  rw [shortest, hstart]
  have hthousands : (onGrid .up m 11 3).isSome = true := onGrid_thousands (by decide)
  obtain ⟨hexponent, hgrid⟩ : 3 ≤ (shortestFrom .up m 11 20 20).exponent ∧ _ :=
    shortestFrom_spec (by decide) (by decide) hthousands
  exact ⟨onGrid_pos hpos hgrid, hexponent, onGrid_reads hgrid⟩

theorem literal_of_shortest {m : Nat} {e : Int} {k : Nat} (hm : m ≠ 0)
    (hdigits : 0 < (shortest .up m e).digits) (hexponent : (shortest .up m e).exponent = k) :
    (finite false m e).literal? = some (toString ((shortest .up m e).digits * 10 ^ k)) := by
  have hmagnitude : magnitude .literal m e = Nat.toDigits 10 ((shortest .up m e).digits * 10 ^ k) := by
    have hpositive : 0 ≤ (shortest .up m e).exponent := by omega
    have hk : (shortest .up m e).exponent.toNat = k := by omega
    rw [← toDigits_append_zeros hdigits, magnitude, if_neg hm]
    show positionally false (Nat.toDigits 10 (shortest .up m e).digits) (shortest .up m e).exponent = _
    rw [positionally, if_pos hpositive, hk]
    exact List.append_nil _
  rw [literal?, finiteText, hmagnitude]
  rfl

/-- What reads back as `2048 * k` is rounded to it. -/
theorem roundDiv_of_readsBack {k x : Nat} (h : readsBack k 11 512 x = true) : roundDiv x 2048 = k := by
  unfold readsBack at h
  rw [roundDiv]
  dsimp only at h ⊢
  by_cases heven : k % 2 = 0
  · rw [if_pos (beq_iff_eq.mpr heven), Bool.and_eq_true, decide_eq_true_eq, decide_eq_true_eq] at h
    split_ifs at h ⊢ <;> omega
  · rw [if_neg (mt beq_iff_eq.mp heven), Bool.and_eq_true, decide_eq_true_eq, decide_eq_true_eq] at h
    split_ifs at h ⊢ <;> omega

/-- **The literal of a large whole number is whole.** It is a multiple of a thousand, written out, and reads
back as the number. -/
theorem literal_whole {k : Nat} (h : 2 ^ 52 ≤ k ∧ k ≤ 2 ^ 53) :
    ∃ shown, 1000 ∣ shown ∧ 2 ^ 63 ≤ shown ∧ roundDiv shown 2048 = k ∧
      (ofMultiple k).literal? = some (toString shown) := by
  rcases Nat.eq_or_lt_of_le h.1 with rfl | hlow
  · exact ⟨9223372036854776000, by decide, by decide, by decide, by decide +kernel⟩
  rcases Nat.eq_or_lt_of_le h.2 with rfl | hhigh
  · exact ⟨18446744073709552000, by decide, by decide, by decide, by decide +kernel⟩
  -- Between the two powers of two as much reads back below the number as above it.
  obtain ⟨hdigits, hexponent, hreads⟩ := shortest_thousands ((Nat.log2_eq_iff (by omega)).mpr ⟨h.1, hhigh⟩)
  obtain ⟨j, hj⟩ : ∃ j : Nat, (shortest .up k 11).exponent = (j + 3 : Nat) :=
    ⟨((shortest .up k 11).exponent - 3).toNat, by omega⟩
  have hten : (commonUnit 11 (j + 3 : Nat)).2 = 10 ^ (j + 3) := Nat.mul_one _
  rw [hj, pointReads, hten] at hreads
  have hround := roundDiv_of_readsBack hreads
  have hheld : ofMultiple k = finite false k 11 := if_neg (Nat.ne_of_lt hhigh)
  refine ⟨(shortest .up k 11).digits * 10 ^ (j + 3), ?_, ?_, hround, ?_⟩
  · exact Nat.dvd_mul_left_of_dvd (Nat.pow_dvd_pow 10 (Nat.le_add_left 3 j)) _
  · have hquotient := (roundDiv_bounds ((shortest .up k 11).digits * 10 ^ (j + 3)) 2048).2
    omega
  · rw [hheld]
    exact literal_of_shortest (by omega) hdigits hj

end BucketQuery.Double
