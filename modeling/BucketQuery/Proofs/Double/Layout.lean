import BucketQuery.Double.Reading
import BucketQuery.Double.Written
import Mathlib.Data.List.TakeDrop
import Mathlib.Tactic.SplitIfs

/-! The layout of a number without an exponent.

`positionally_reads` takes the digits of `n`, moved by a power of ten, apart again: a whole part that
is never empty, and a part behind the point. Which digits they are is told by what they read as.
What follows for literals is that they are a sign, if any, in front of a digit, and then digits and
at most one point. In every layout a minus or a digit comes first (`finiteText_start`). -/
namespace BucketQuery.Double

theorem digitsValue_eq (ds : List Char) : digitsValue ds = Nat.ofDigitChars 10 ds 0 := rfl

theorem digitsValue_toDigits (n : Nat) : digitsValue (Nat.toDigits 10 n) = n :=
  Nat.ofDigitChars_ten_toDigits

theorem digitsValue_append_zeros (ds : List Char) (k : Nat) :
    digitsValue (ds ++ zeros k) = digitsValue ds * Nat.pow 10 k := by
  rw [digitsValue_eq, Nat.ofDigitChars_append, zeros, Nat.ofDigitChars_replicate_zero, Nat.mul_comm]
  rfl

theorem digitsValue_zeros_append (ds : List Char) (k : Nat) :
    digitsValue (zeros k ++ ds) = digitsValue ds := by
  rw [digitsValue_eq, Nat.ofDigitChars_append, zeros, Nat.ofDigitChars_replicate_zero, Nat.mul_zero]
  rfl

theorem toDigits_all (n : Nat) : (Nat.toDigits 10 n).all Char.isDigit = true :=
  List.all_eq_true.mpr fun _ hc => Nat.isDigit_of_mem_toDigits (by decide) (by decide) hc

theorem zeros_all (k : Nat) : (zeros k).all Char.isDigit = true := by
  rw [zeros, List.all_replicate]
  cases k <;> rfl

/-- A run of digits is taken off as a whole. -/
theorem spanDigits_append {ds : List Char} (rest : List Char) (hd : ds.all Char.isDigit = true)
    (hr : rest.head?.all (!Char.isDigit ·) = true) : spanDigits (ds ++ rest) = (ds, rest) := by
  rw [List.all_eq_true] at hd
  have hrest : rest.takeWhile Char.isDigit = [] ∧ rest.dropWhile Char.isDigit = rest := by
    cases rest with
    | nil => exact ⟨rfl, rfl⟩
    | cons c rest =>
      have hc : c.isDigit = false := by simpa using hr
      exact ⟨List.takeWhile_cons_of_neg (by simp [hc]), List.dropWhile_cons_of_neg (by simp [hc])⟩
  rw [spanDigits, List.span_eq_takeWhile_dropWhile, List.takeWhile_append_of_pos hd,
    List.dropWhile_append_of_pos hd, hrest.1, hrest.2, List.append_nil]

/-- The point and the digits behind it, if there are any. -/
def behindPoint (part : List Char) : List Char := if part.isEmpty then [] else '.' :: part

theorem behindPoint_eq {part : List Char} (h : 0 < part.length) : behindPoint part = '.' :: part := by
  have hempty : part.isEmpty = false := by
    rw [List.isEmpty_eq_false_iff, ← List.length_pos_iff]
    exact h
  rw [behindPoint, hempty]
  rfl

/-- The text is digits, not none, and digits behind the point. -/
structure Around (text whole part : List Char) : Prop where
  text_eq : text = whole ++ behindPoint part
  whole_ne : whole ≠ []
  whole_digits : whole.all Char.isDigit = true
  part_digits : part.all Char.isDigit = true

/-- The number that `whole` and `part`, digits around a point, write is `n` times a power of ten. -/
def Reads (n : Nat) (e : Int) (whole part : List Char) : Prop :=
  if 0 ≤ e then part = [] ∧ digitsValue whole = n * Nat.pow 10 e.toNat
  else part.length = (-e).toNat ∧ digitsValue (whole ++ part) = n

section Places
variable {ds : List Char} {places : Nat}

/-- The point falls among the digits. -/
theorem point_among (hall : ds.all Char.isDigit = true) (hpos : 0 < places)
    (h : places < ds.length) :
    ∃ whole part, Around (ds.take (ds.length - places) ++ '.' :: ds.drop (ds.length - places)) whole part ∧
      part.length = places ∧ whole ++ part = ds := by
  generalize hk : ds.length - places = k
  have hsplit : ds.take k ++ ds.drop k = ds := List.take_append_drop k ds
  have hlength : (ds.drop k).length = places := by
    rw [List.length_drop]
    omega
  have hfront : ds.take k ≠ [] := by
    rw [← List.length_pos_iff, List.length_take]
    omega
  rw [← hsplit, List.all_append, Bool.and_eq_true] at hall
  refine ⟨_, _, ⟨?_, hfront, hall.1, hall.2⟩, hlength, hsplit⟩
  rw [behindPoint_eq (by omega)]

/-- All digits lie behind the point, after zeros. -/
theorem point_before (hall : ds.all Char.isDigit = true) (hpos : 0 < places)
    (h : ds.length ≤ places) :
    ∃ whole part, Around ('0' :: '.' :: (zeros (places - ds.length) ++ ds)) whole part ∧
      part.length = places ∧ digitsValue (whole ++ part) = digitsValue ds := by
  have hlength : (zeros (places - ds.length) ++ ds).length = places := by
    rw [List.length_append, zeros, List.length_replicate]
    omega
  have hpart : (zeros (places - ds.length) ++ ds).all Char.isDigit = true := by
    rw [List.all_append, zeros_all, hall, Bool.and_self]
  have hzero : ['0'] ++ (zeros (places - ds.length) ++ ds) = zeros (places - ds.length + 1) ++ ds := by
    rw [zeros, zeros, List.replicate_succ]
    rfl
  refine ⟨['0'], _, ⟨?_, List.cons_ne_nil _ _, rfl, hpart⟩, hlength, ?_⟩
  · rw [behindPoint_eq (by omega)]
    rfl
  · rw [hzero, digitsValue_zeros_append]

end Places

theorem positionally_reads (n : Nat) (e : Int) :
    ∃ whole part, Around (positionally false (Nat.toDigits 10 n) e) whole part ∧
      Reads n e whole part := by
  have hall := toDigits_all n
  unfold positionally Reads
  by_cases he : 0 ≤ e
  · simp only [if_pos he]
    have hne : Nat.toDigits 10 n ++ zeros e.toNat ≠ [] := by simp [Nat.toDigits_ne_nil]
    have hdigits : (Nat.toDigits 10 n ++ zeros e.toNat).all Char.isDigit = true := by
      rw [List.all_append, hall, zeros_all, Bool.and_self]
    refine ⟨_, [], ⟨rfl, hne, hdigits, rfl⟩, rfl, ?_⟩
    rw [digitsValue_append_zeros, digitsValue_toDigits]
  · simp only [if_neg he]
    have hpos : 0 < (-e).toNat := by omega
    split
    · rename_i hp
      obtain ⟨whole, part, haround, hlength, hsplit⟩ := point_among hall hpos hp
      exact ⟨whole, part, haround, hlength, by rw [hsplit, digitsValue_toDigits]⟩
    · rename_i hp
      obtain ⟨whole, part, haround, hlength, hvalue⟩ := point_before hall hpos (Nat.le_of_not_lt hp)
      exact ⟨whole, part, haround, hlength, by rw [hvalue, digitsValue_toDigits]⟩

/-- The decimal that a literal writes for `m * 2 ^ e`. -/
def literalDecimal (m : Nat) (e : Int) : Decimal := if m = 0 then ⟨0, 0⟩ else shortest .up m e

/-- The magnitude of a literal is a whole part and what is behind the point. -/
theorem magnitude_reads (m : Nat) (e : Int) :
    ∃ whole part, Around (magnitude .literal m e) whole part ∧
      Reads (literalDecimal m e).digits (literalDecimal m e).exponent whole part := by
  unfold magnitude literalDecimal
  by_cases hm : m = 0
  · simp only [if_pos hm]
    exact ⟨['0'], [], ⟨rfl, List.cons_ne_nil _ _, rfl, rfl⟩, rfl, rfl⟩
  · simp only [if_neg hm]
    exact positionally_reads _ _

/-! ### The first character -/

/-- A digit comes first. -/
def StartsWithDigit (cs : List Char) : Prop := ∃ d ds, cs = d :: ds ∧ d.isDigit = true

theorem startsWithDigit_of_all {cs : List Char} (hne : cs ≠ []) (h : cs.all Char.isDigit = true) :
    StartsWithDigit cs := by
  obtain ⟨d, ds, rfl⟩ := List.exists_cons_of_ne_nil hne
  rw [List.all_cons, Bool.and_eq_true] at h
  exact ⟨d, ds, rfl, h.1⟩

theorem toDigits_startsWithDigit (n : Nat) : StartsWithDigit (Nat.toDigits 10 n) :=
  startsWithDigit_of_all Nat.toDigits_ne_nil (toDigits_all n)

theorem StartsWithDigit.append {cs : List Char} (h : StartsWithDigit cs) (rest : List Char) :
    StartsWithDigit (cs ++ rest) := by
  obtain ⟨d, ds, rfl, hd⟩ := h
  exact ⟨d, ds ++ rest, rfl, hd⟩

theorem StartsWithDigit.take {cs : List Char} (h : StartsWithDigit cs) {n : Nat} (hn : 0 < n) :
    StartsWithDigit (cs.take n) := by
  obtain ⟨d, ds, rfl, hd⟩ := h
  obtain ⟨n, rfl⟩ : ∃ m, n = m + 1 := ⟨n - 1, by omega⟩
  exact ⟨d, ds.take n, rfl, hd⟩

theorem positionally_start (keepsPoint : Bool) {digits : List Char} (h : StartsWithDigit digits)
    (e : Int) : StartsWithDigit (positionally keepsPoint digits e) := by
  unfold positionally
  dsimp only
  split_ifs
  · exact (h.append _).append _
  · exact (h.append _).append _
  · exact (h.take (by omega)).append _
  · exact ⟨'0', _, rfl, by decide⟩

theorem magnitude_start (l : Layout) (m : Nat) (e : Int) : StartsWithDigit (magnitude l m e) := by
  have hdigits := toDigits_startsWithDigit (shortest l.tie m e).digits
  unfold magnitude
  dsimp only
  split_ifs
  · exact ⟨'0', _, rfl, by decide⟩
  · exact ⟨'0', _, rfl, by decide⟩
  · split
    · exact positionally_start _ hdigits _
    · split_ifs
      · exact positionally_start _ hdigits _
      · exact ((hdigits.take Nat.one_pos).append _).append _

/-- A number is written with a minus or a digit first. -/
theorem finiteText_start (l : Layout) (negative : Bool) (m : Nat) (e : Int) :
    ∃ c cs, (finiteText l negative m e).toList = c :: cs ∧ (c = '-' ∨ c.isDigit = true) := by
  rw [finiteText, String.toList_ofList]
  cases negative with
  | true => exact ⟨'-', _, rfl, .inl rfl⟩
  | false =>
    obtain ⟨d, ds, h, hd⟩ := magnitude_start l m e
    exact ⟨d, ds, h, .inr hd⟩

/-! ### All characters -/

section Characters
variable {P : Char → Prop} (hdigit : ∀ c, c.isDigit = true → P c)
include hdigit

theorem digits_forall {cs : List Char} (h : cs.all Char.isDigit = true) : ∀ c ∈ cs, P c :=
  fun c hc => hdigit c (List.all_eq_true.mp h c hc)

variable (hmarks : ∀ c ∈ ['-', '+', '.', 'e'], P c)
include hmarks

theorem positionally_forall (keepsPoint : Bool) {digits : List Char} (h : ∀ c ∈ digits, P c) (e : Int) :
    ∀ c ∈ positionally keepsPoint digits e, P c := by
  have hpoint : P '.' := hmarks '.' (by simp)
  have hzero : P '0' := hdigit '0' (by decide)
  have hzeros (n : Nat) : ∀ c ∈ zeros n, P c := digits_forall hdigit (zeros_all n)
  unfold positionally
  dsimp only
  split_ifs
  · refine List.forall_mem_append.mpr ⟨List.forall_mem_append.mpr ⟨h, hzeros _⟩, ?_⟩
    simp [hpoint, hzero]
  · simpa using List.forall_mem_append.mpr ⟨h, hzeros _⟩
  · exact List.forall_mem_append.mpr ⟨fun c hc => h c (List.mem_of_mem_take hc),
      List.forall_mem_cons.mpr ⟨hpoint, fun c hc => h c (List.mem_of_mem_drop hc)⟩⟩
  · exact List.forall_mem_cons.mpr ⟨hzero, List.forall_mem_cons.mpr
      ⟨hpoint, List.forall_mem_append.mpr ⟨hzeros _, h⟩⟩⟩

theorem scientifically_forall {digits : List Char} (h : ∀ c ∈ digits, P c) (place : Int) :
    ∀ c ∈ scientifically digits place, P c := by
  have hpoint : P '.' := hmarks '.' (by simp)
  have he : P 'e' := hmarks 'e' (by simp)
  have hsign : P (if place < 0 then '-' else '+') := by
    split_ifs
    · exact hmarks '-' (by simp)
    · exact hmarks '+' (by simp)
  have hpart : ∀ c ∈ if digits.length ≤ 1 then [] else '.' :: digits.drop 1, P c := by
    split_ifs
    · simp
    · exact List.forall_mem_cons.mpr ⟨hpoint, fun c hc => h c (List.mem_of_mem_drop hc)⟩
  refine List.forall_mem_append.mpr ⟨List.forall_mem_append.mpr
    ⟨fun c hc => h c (List.mem_of_mem_take hc), hpart⟩, ?_⟩
  exact List.forall_mem_cons.mpr ⟨he, List.forall_mem_cons.mpr
    ⟨hsign, digits_forall hdigit (toDigits_all _)⟩⟩

/-- A number is written with digits, signs, a point and an `e`. -/
theorem finiteText_forall (l : Layout) (negative : Bool) (m : Nat) (e : Int) :
    ∀ c ∈ (finiteText l negative m e).toList, P c := by
  have hdigits : ∀ c ∈ Nat.toDigits 10 (shortest l.tie m e).digits, P c :=
    digits_forall hdigit (toDigits_all _)
  have hmagnitude : ∀ c ∈ magnitude l m e, P c := by
    unfold magnitude
    dsimp only
    split_ifs
    · simp [hdigit '0' (by decide), hmarks '.' (by simp)]
    · simp [hdigit '0' (by decide)]
    · split
      · exact positionally_forall hdigit hmarks _ hdigits _
      · split_ifs
        · exact positionally_forall hdigit hmarks _ hdigits _
        · exact scientifically_forall hdigit hmarks hdigits _
  rw [finiteText, String.toList_ofList]
  cases negative with
  | true => exact List.forall_mem_cons.mpr ⟨hmarks '-' (by simp), hmagnitude⟩
  | false => exact hmagnitude

end Characters

end BucketQuery.Double
