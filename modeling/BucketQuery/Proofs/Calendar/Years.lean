import BucketQuery.Proofs.Calendar.Figures

/-! Years as text, with a sign and without.

A year of more than four figures starts with a plus, a year before zero with a minus, and both signs
sort in front of figures. Behind the sign the figures decide from the left: years of different length
are compared as far as the shorter one goes, and if they are the same so far the shorter one is first,
since the mark behind it sorts in front of a figure (`yearText_append_lt_iff`). Years without a sign
sort as numbers. -/
namespace BucketQuery.Calendar

open Double (digitsValue)

/-! ### Figures of any length -/

theorem digitsValue_append (as bs : List Char) :
    digitsValue (as ++ bs) = digitsValue as * 10 ^ bs.length + digitsValue bs := by
  rw [Double.digitsValue_eq, Nat.ofDigitChars_append, Nat.ofDigitChars_eq_ofDigitChars_zero, Nat.mul_comm]
  rfl

/-- The digits at the front are the number without its last figures. -/
theorem digitsValue_take {ds : List Char} (h : ds.all Char.isDigit = true) (k : Nat) :
    digitsValue (ds.take k) = digitsValue ds / 10 ^ (ds.length - k) := by
  have hdrop : (ds.drop k).all Char.isDigit = true :=
    List.all_eq_true.mpr fun c hc => List.all_eq_true.mp h c (List.mem_of_mem_drop hc)
  have hvalue : digitsValue ds = digitsValue (ds.take k) * 10 ^ (ds.length - k) + digitsValue (ds.drop k) := by
    rw [← List.length_drop, ← digitsValue_append, List.take_append_drop]
  have hsmall : digitsValue (ds.drop k) < 10 ^ (ds.length - k) := List.length_drop ▸ digitsValue_lt hdrop
  rw [hvalue, Nat.mul_comm, Nat.mul_add_div (Nat.pow_pos (by decide)), Nat.div_eq_of_lt hsmall,
    Nat.add_zero]

theorem dash_lt_of_digit {c : Char} (h : c.isDigit = true) : '-' < c := by
  have hbounds := digit_bounds h
  rw [lt_iff_toNat_lt]
  exact Nat.lt_of_lt_of_le (by decide) hbounds.1

/-- Behind the same digits, the text that ends first is first. -/
theorem dash_lt_iff {as bs : List Char} (ha : as.all Char.isDigit = true) (hb : bs.all Char.isDigit = true)
    (hends : as = [] ∨ bs = []) (cs ds : List Char) :
    as ++ '-' :: cs < bs ++ '-' :: ds ↔ as.length < bs.length ∨ as = bs ∧ cs < ds := by
  cases as with
  | nil =>
    cases bs with
    | nil => simp
    | cons b bs =>
      rw [List.all_cons, Bool.and_eq_true] at hb
      simp [List.cons_lt_cons_iff, dash_lt_of_digit hb.1]
  | cons a as =>
    obtain rfl := hends.resolve_left (List.cons_ne_nil a as)
    rw [List.all_cons, Bool.and_eq_true] at ha
    have hlt := dash_lt_of_digit ha.1
    simp [List.cons_lt_cons_iff, Char.lt_asymm hlt, (Char.ne_of_lt hlt).symm]

theorem digits_eq_iff {as bs : List Char} (ha : as.all Char.isDigit = true)
    (hb : bs.all Char.isDigit = true) (h : as.length = bs.length) :
    as = bs ↔ digitsValue as = digitsValue bs := by
  refine ⟨congrArg digitsValue, fun hvalue => List.le_antisymm (List.not_lt.mp ?_) (List.not_lt.mp ?_)⟩
  · rw [digits_lt_iff hb ha h.symm, hvalue]
    exact Nat.lt_irrefl _
  · rw [digits_lt_iff ha hb h, hvalue]
    exact Nat.lt_irrefl _

/-! ### Years -/

/-- How many figures a year is written with. -/
def yearWidth (n : Nat) : Nat := (padded 4 n).length

/-- The first of two figures followed by a mark that sorts in front of them all: as far as both go they
are compared as numbers, and then by their length. -/
def FiguresFirst (m n : Nat) : Prop :=
  let both := min (yearWidth m) (yearWidth n)
  m / 10 ^ (yearWidth m - both) < n / 10 ^ (yearWidth n - both) ∨
    m / 10 ^ (yearWidth m - both) = n / 10 ^ (yearWidth n - both) ∧ yearWidth m < yearWidth n

instance (m n : Nat) : Decidable (FiguresFirst m n) := by
  unfold FiguresFirst
  infer_instance

/-- A plus sorts in front of a minus, and both in front of figures. -/
def yearRank (year : Int) : Nat := if year < 0 then 1 else if year ≤ 9999 then 2 else 0

/-- The text of the one year sorts in front of that of the other. -/
def YearFirst (y z : Int) : Prop :=
  yearRank y < yearRank z ∨ yearRank y = yearRank z ∧ FiguresFirst y.natAbs z.natAbs

instance (y z : Int) : Decidable (YearFirst y z) := by
  unfold YearFirst
  infer_instance

theorem padded_inj {width m n : Nat} : padded width m = padded width n ↔ m = n := by
  refine ⟨fun h => ?_, fun h => h ▸ rfl⟩
  rw [← digitsValue_padded width m, h, digitsValue_padded]

theorem figures_append_lt_iff (m n : Nat) (cs ds : List Char) :
    padded 4 m ++ '-' :: cs < padded 4 n ++ '-' :: ds ↔ FiguresFirst m n ∨ m = n ∧ cs < ds := by
  have hm := padded_all 4 m
  have hn := padded_all 4 n
  have hvm := digitsValue_padded 4 m
  have hvn := digitsValue_padded 4 n
  have hinj : padded 4 m = padded 4 n ↔ m = n := padded_inj
  unfold FiguresFirst yearWidth
  generalize padded 4 m = as at *
  generalize padded 4 n = bs at *
  dsimp only
  generalize hk : min as.length bs.length = k
  -- As far as both go the texts have digits of one length, and behind those one of them has no more.
  have hall {ls : List Char} (h : ls.all Char.isDigit = true) :
      (ls.take k).all Char.isDigit = true ∧ (ls.drop k).all Char.isDigit = true := by
    rw [← List.take_append_drop k ls, List.all_append, Bool.and_eq_true] at h
    exact h
  have hlength : (as.take k).length = (bs.take k).length := by
    rw [List.length_take, List.length_take]
    omega
  have hends : as.drop k = [] ∨ bs.drop k = [] := by
    rw [List.drop_eq_nil_iff, List.drop_eq_nil_iff]
    omega
  have hlonger : (as.drop k).length < (bs.drop k).length ↔ as.length < bs.length := by
    rw [List.length_drop, List.length_drop]
    omega
  have hsame : as.take k = bs.take k ∧ as.drop k = bs.drop k ↔ m = n := by
    rw [← hinj]
    refine ⟨fun h => ?_, fun h => h ▸ ⟨rfl, rfl⟩⟩
    rw [← List.take_append_drop k as, h.1, h.2, List.take_append_drop]
  have hfront := append_lt_append_iff hlength (as.drop k ++ '-' :: cs) (bs.drop k ++ '-' :: ds)
  rw [← List.append_assoc, ← List.append_assoc, List.take_append_drop, List.take_append_drop,
    dash_lt_iff (hall hm).2 (hall hn).2 hends, hlonger, digits_lt_iff (hall hm).1 (hall hn).1 hlength,
    and_or_left, ← and_assoc, hsame, digits_eq_iff (hall hm).1 (hall hn).1 hlength,
    digitsValue_take hm, digitsValue_take hn, hvm, hvn] at hfront
  rw [hfront, or_assoc]

/-- What stands in front of the figures of a year. -/
def yearSign (year : Int) : List Char := if year < 0 then ['-'] else if year ≤ 9999 then [] else ['+']

theorem yearText_eq (year : Int) : yearText year = yearSign year ++ padded 4 year.natAbs := by
  unfold yearText yearSign
  split_ifs with hfour hneg
  · omega
  · have hvalue : year.toNat = year.natAbs := by omega
    rw [hvalue, List.nil_append]
  · omega
  · rfl
  · omega
  · rfl

theorem sign_lt_padded {c : Char} (h : c.toNat < 48) (n : Nat) (cs ds : List Char) :
    c :: cs < padded 4 n ++ ds := by
  have hall := padded_all 4 n
  have hlength := le_length_padded 4 n
  cases hfigures : padded 4 n with
  | nil =>
    rw [hfigures] at hlength
    exact absurd hlength (by decide)
  | cons d rest =>
    rw [hfigures, List.all_cons, Bool.and_eq_true] at hall
    have hd := digit_bounds hall.1
    exact List.cons_lt_cons_iff.mpr (.inl ((lt_iff_toNat_lt c d).mpr (by omega)))

/-- The beginning decides between years of different rank, whatever follows. -/
theorem yearText_lt_of_rank {y z : Int} (h : yearRank y < yearRank z) (cs ds : List Char) :
    yearText y ++ cs < yearText z ++ ds := by
  rw [yearText_eq, yearText_eq]
  unfold yearRank at h
  unfold yearSign
  split_ifs at h ⊢ with hneg hneg' hfour hfour'
  all_goals first
    | omega
    | exact sign_lt_padded (by decide) _ _ _
    | exact List.cons_lt_cons_iff.mpr (.inl (by decide))

theorem yearSign_congr {y z : Int} (h : yearRank y = yearRank z) :
    yearSign y = yearSign z ∧ (y.natAbs = z.natAbs ↔ y = z) := by
  unfold yearRank at h
  unfold yearSign
  split_ifs at h ⊢
  all_goals first
    | omega
    | exact ⟨rfl, by omega⟩

theorem yearText_append_lt_iff (y z : Int) (cs ds : List Char) :
    yearText y ++ '-' :: cs < yearText z ++ '-' :: ds ↔ YearFirst y z ∨ y = z ∧ cs < ds := by
  unfold YearFirst
  rcases Nat.lt_trichotomy (yearRank y) (yearRank z) with hrank | hrank | hrank
  · exact iff_of_true (yearText_lt_of_rank hrank _ _) (.inl (.inl hrank))
  · obtain ⟨hsign, hvalue⟩ := yearSign_congr hrank
    have hsigns : ∀ as bs : List Char, yearSign z ++ as < yearSign z ++ bs ↔ as < bs := fun as bs => by
      rw [append_lt_append_iff rfl, eq_self, true_and, or_iff_right (List.lt_irrefl _)]
    rw [yearText_eq, yearText_eq, hsign, List.append_assoc, List.append_assoc, hsigns,
      figures_append_lt_iff, hvalue]
    simp only [hrank, Nat.lt_irrefl, false_or, true_and]
  · refine iff_of_false (List.lt_asymm (yearText_lt_of_rank hrank _ _)) ?_
    rintro ((hlt | ⟨heq, -⟩) | ⟨rfl, -⟩)
    · omega
    · omega
    · exact Nat.lt_irrefl _ hrank

/-- Years of four figures sort as numbers. -/
theorem yearFirst_iff_of_four {y z : Int} (hy : 0 ≤ y ∧ y ≤ 9999) (hz : 0 ≤ z ∧ z ≤ 9999) :
    YearFirst y z ↔ y < z := by
  have hrank {x : Int} (hx : 0 ≤ x ∧ x ≤ 9999) : yearRank x = 2 := by
    rw [yearRank, if_neg (by omega), if_pos hx.2]
  have hwidth {x : Int} (hx : 0 ≤ x ∧ x ≤ 9999) : yearWidth x.natAbs = 4 :=
    length_padded (by decide) (by omega)
  unfold YearFirst FiguresFirst
  simp only [hrank hy, hrank hz, hwidth hy, hwidth hz, Nat.min_self, Nat.sub_self, Nat.pow_zero, Nat.div_one,
    Nat.lt_irrefl, and_false, or_false, false_or, true_and]
  omega

-- A longer year is compared as far as the shorter one goes, with whatever sign.
example : YearFirst 10000 9999 ∧ YearFirst 100000 99999 ∧ YearFirst 26214 262142 ∧ YearFirst (-1) (-2) ∧
    YearFirst (-10000) (-9999) ∧ YearFirst 262142 (-262143) := by
  decide +kernel

end BucketQuery.Calendar
