import BucketQuery.Calendar.Written
import BucketQuery.Proofs.Double.Layout
import Mathlib.Algebra.Group.Nat.Defs

/-! Figures padded with zeros.

A figure that fits its width is written with exactly that many digits, and they read as the figure.
Digits of one width sort as their numbers, so a text that goes on behind such a figure sorts by the
figure first and by what follows second (`padded_append_lt_iff`). -/
namespace BucketQuery.Calendar

open Double (digitsValue)

/-! ### The digits of a figure -/

theorem padded_all (width n : Nat) : (padded width n).all Char.isDigit = true := by
  rw [padded, List.all_append, Double.toDigits_all, Bool.and_true]
  exact Double.zeros_all _

theorem digitsValue_padded (width n : Nat) : digitsValue (padded width n) = n := by
  rw [padded]
  exact (Double.digitsValue_zeros_append _ _).trans (Double.digitsValue_toDigits n)

theorem le_length_padded (width n : Nat) : width ≤ (padded width n).length := by
  rw [padded, List.length_append, List.length_replicate]
  omega

theorem length_padded {width n : Nat} (hpos : 0 < width) (h : n < 10 ^ width) :
    (padded width n).length = width := by
  have hdigits : (Nat.toDigits 10 n).length ≤ width :=
    (Nat.length_toDigits_le_iff (by decide) hpos).mpr h
  rw [padded, List.length_append, List.length_replicate]
  omega

/-! ### All characters -/

section Characters
variable {P : Char → Prop} (hdigit : ∀ c, c.isDigit = true → P c)
include hdigit

theorem padded_forall (width n : Nat) : ∀ c ∈ padded width n, P c :=
  Double.digits_forall hdigit (padded_all width n)

/-- An instant is written with digits, signs, colons and a blank. -/
theorem Instant.text_forall (hmarks : ∀ c ∈ ['-', '+', ':', ' '], P c) (t : Instant) :
    ∀ c ∈ t.text.toList, P c := by
  have hdash : P '-' := hmarks '-' (by simp)
  have hcolon : P ':' := hmarks ':' (by simp)
  have hblank : P ' ' := hmarks ' ' (by simp)
  have hyear : ∀ c ∈ yearText t.date.year, P c := by
    unfold yearText
    split_ifs
    · exact padded_forall hdigit _ _
    · exact List.forall_mem_cons.mpr ⟨hdash, padded_forall hdigit _ _⟩
    · exact List.forall_mem_cons.mpr ⟨hmarks '+' (by simp), padded_forall hdigit _ _⟩
  have hday : ∀ c ∈ t.date.dayChars, P c := by
    refine List.forall_mem_append.mpr ⟨List.forall_mem_append.mpr ⟨hyear, ?_⟩, ?_⟩
    · exact List.forall_mem_cons.mpr ⟨hdash, padded_forall hdigit _ _⟩
    · exact List.forall_mem_cons.mpr ⟨hdash, padded_forall hdigit _ _⟩
  have hclock : ∀ c ∈ t.clockChars, P c := by
    refine List.forall_mem_append.mpr ⟨padded_forall hdigit _ _, ?_⟩
    refine List.forall_mem_cons.mpr ⟨hcolon, List.forall_mem_append.mpr ⟨padded_forall hdigit _ _, ?_⟩⟩
    exact List.forall_mem_cons.mpr ⟨hcolon, padded_forall hdigit _ _⟩
  rw [Instant.text, String.toList_ofList]
  exact List.forall_mem_append.mpr ⟨hday, List.forall_mem_cons.mpr ⟨hblank, hclock⟩⟩

end Characters

/-! ### Order -/

theorem lt_iff_toNat_lt (a b : Char) : a < b ↔ a.toNat < b.toNat := Iff.rfl

theorem digit_bounds {c : Char} (h : c.isDigit = true) : 48 ≤ c.toNat ∧ c.toNat ≤ 57 := by
  rw [Char.isDigit, Bool.and_eq_true, decide_eq_true_eq, decide_eq_true_eq] at h
  exact h

theorem digitsValue_cons (c : Char) (cs : List Char) :
    digitsValue (c :: cs) = (c.toNat - 48) * 10 ^ cs.length + digitsValue cs := by
  rw [Double.digitsValue_eq, Nat.ofDigitChars_cons, Nat.ofDigitChars_eq_ofDigitChars_zero, Nat.mul_zero,
    Nat.zero_add, Nat.mul_comm]
  rfl

theorem digitsValue_lt {cs : List Char} (h : cs.all Char.isDigit = true) :
    digitsValue cs < 10 ^ cs.length := by
  induction cs with
  | nil => exact Nat.one_pos
  | cons c cs ih =>
    rw [List.all_cons, Bool.and_eq_true] at h
    have hc := digit_bounds h.1
    have hcs := ih h.2
    rw [digitsValue_cons, List.length_cons, Nat.pow_succ]
    have : (c.toNat - 48) * 10 ^ cs.length ≤ 9 * 10 ^ cs.length := Nat.mul_le_mul_right _ (by omega)
    omega

/-- Digits of one width sort as the numbers they write. -/
theorem digits_lt_iff {as bs : List Char} (ha : as.all Char.isDigit = true)
    (hb : bs.all Char.isDigit = true) (h : as.length = bs.length) :
    as < bs ↔ digitsValue as < digitsValue bs := by
  induction as generalizing bs with
  | nil =>
    rw [List.length_eq_zero_iff.mp h.symm]
    simp
  | cons a as ih =>
    obtain ⟨b, bs, rfl⟩ := List.exists_cons_of_length_eq_add_one h.symm
    rw [List.all_cons, Bool.and_eq_true] at ha hb
    have hlength : as.length = bs.length := Nat.succ.inj h
    have hda := digit_bounds ha.1
    have hdb := digit_bounds hb.1
    have hva := digitsValue_lt ha.2
    have hvb := digitsValue_lt hb.2
    have heq : a = b ↔ a.toNat = b.toNat := Char.toNat_inj.symm
    rw [List.cons_lt_cons_iff, ih ha.2 hb.2 hlength, lt_iff_toNat_lt, heq, digitsValue_cons,
      digitsValue_cons, hlength]
    rw [hlength] at hva
    generalize 10 ^ bs.length = p at hva hvb ⊢
    -- The first digits decide, unless they are equal.
    rcases Nat.lt_trichotomy a.toNat b.toNat with hlt | heq | hgt
    · have : (a.toNat - 48 + 1) * p ≤ (b.toNat - 48) * p := Nat.mul_le_mul_right _ (by omega)
      rw [Nat.add_mul] at this
      omega
    · rw [heq]
      omega
    · have : (b.toNat - 48 + 1) * p ≤ (a.toNat - 48) * p := Nat.mul_le_mul_right _ (by omega)
      rw [Nat.add_mul] at this
      omega

/-- Texts whose fronts have one length sort by their fronts first. -/
theorem append_lt_append_iff {as bs : List Char} (h : as.length = bs.length) (cs ds : List Char) :
    as ++ cs < bs ++ ds ↔ as < bs ∨ as = bs ∧ cs < ds := by
  induction as generalizing bs with
  | nil =>
    rw [List.length_eq_zero_iff.mp h.symm]
    simp
  | cons a as ih =>
    obtain ⟨b, bs, rfl⟩ := List.exists_cons_of_length_eq_add_one h.symm
    rw [List.cons_append, List.cons_append, List.cons_lt_cons_iff, List.cons_lt_cons_iff,
      ih (Nat.succ.inj h), List.cons.injEq, and_or_left, and_assoc, or_assoc]

/-- A padded figure in front decides, unless it is the same. -/
theorem padded_append_lt_iff {width m n : Nat} (hpos : 0 < width) (hm : m < 10 ^ width)
    (hn : n < 10 ^ width) (cs ds : List Char) :
    padded width m ++ cs < padded width n ++ ds ↔ m < n ∨ m = n ∧ cs < ds := by
  have hlength : (padded width m).length = (padded width n).length := by
    rw [length_padded hpos hm, length_padded hpos hn]
  have heq : padded width m = padded width n ↔ m = n := by
    refine ⟨fun h => ?_, fun h => h ▸ rfl⟩
    rw [← digitsValue_padded width m, h, digitsValue_padded]
  rw [append_lt_append_iff hlength, digits_lt_iff (padded_all _ _) (padded_all _ _) hlength,
    digitsValue_padded, digitsValue_padded, heq]

end BucketQuery.Calendar
