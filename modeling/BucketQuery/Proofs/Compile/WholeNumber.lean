import BucketQuery.Proofs.Compile.Emission
import BucketQuery.Proofs.Sql.Fragment
import BucketQuery.Proofs.Sql.Literal

/-! Whole numbers in filters.

A whole number of a request is compared with, or bounds a range, as one value, and `Emits` says which. Up to
the largest number of a column it is the number itself. From there on it is a binary64 number, the nearest
multiple of 2048, of which a literal shows a multiple of a thousand, so numbers that round alike compile
alike (`whole_number_kept_iff`). A pattern test still shows every figure. -/
namespace BucketQuery

open BucketQuery.Filter (Comparison Condition Placement)
open Sql (Dialect Expr Piece Value)
open Sql.Value (largestInt)

namespace Compile

/-- A number that a request holds as a whole one. -/
def IsWhole (n : Int) : Prop := -0x8000000000000000 ≤ n ∧ n ≤ 0xffffffffffffffff

instance (n : Int) : Decidable (IsWhole n) := inferInstanceAs (Decidable (_ ∧ _))

/-! ### Where a value goes -/

/-- A condition compiles to a test, whose values are these and whose literals stand in this text. -/
structure EmitsAs (c : Condition) (e : Expr) (values : List Value) (text : Dialect → String) : Prop where
  compiled : condition c = .ok (negate c.negated e)
  params (d : Dialect) : ((negate c.negated e).render d .bound).params = values
  inline (d : Dialect) :
    ((negate c.negated e).render d .inline).sql = if c.negated then "NOT (" ++ text d ++ ")" else text d

theorem EmitsAs.of_compiled {c : Condition} {e : Expr} (h : condition c = .ok (negate c.negated e)) :
    EmitsAs c e (Piece.values e.pieces) fun d => Piece.inlineText d e.pieces where
  compiled := h
  params d := by
    rw [Expr.render_eq]
    cases c.negated with
    | false => rfl
    | true =>
      show Piece.values (e.pieces ++ [.text ")"]) = _
      rw [Piece.values_append]
      exact List.append_nil _
  inline d := by
    rw [Expr.render_eq]
    cases c.negated with
    | false => rfl
    | true =>
      show "NOT (" ++ Piece.inlineText d (e.pieces ++ [.text ")"]) = _
      rw [Piece.inlineText_append, ← String.append_assoc]
      rfl

/-- The value that a whole number becomes, wherever a condition holds it. -/
structure Emits (n : Int) (v : Value) : Prop where
  compared {c : Condition} {op : Comparison} (hfield : Sql.isIdentifier (Text.trim c.field) = true)
    (hop : c.operator = some (.compare op)) (hvalue : c.value = .int n) :
    EmitsAs c (.compare (Text.trim c.field) op v) [v] fun d =>
      Text.trim c.field ++ " " ++ op.text ++ " " ++ d.literal v
  low {c : Condition} {negated : Bool} {high : Json} {w : Value}
    (hfield : Sql.isIdentifier (Text.trim c.field) = true) (hop : c.operator = some (.between negated))
    (hvalue : c.value = .array [.int n, high]) (hhigh : Value.ofJson? high = some w) (hw : w.isNull = false) :
    EmitsAs c (.between (Text.trim c.field) v w negated) [v, w] fun d =>
      Text.trim c.field ++ (if negated then " NOT BETWEEN " else " BETWEEN ") ++ d.literal v ++ " AND " ++
        d.literal w
  high {c : Condition} {negated : Bool} {low : Json} {w : Value}
    (hfield : Sql.isIdentifier (Text.trim c.field) = true) (hop : c.operator = some (.between negated))
    (hvalue : c.value = .array [low, .int n]) (hlow : Value.ofJson? low = some w) (hw : w.isNull = false) :
    EmitsAs c (.between (Text.trim c.field) w v negated) [w, v] fun d =>
      Text.trim c.field ++ (if negated then " NOT BETWEEN " else " BETWEEN ") ++ d.literal w ++ " AND " ++
        d.literal v

section Places
variable {c : Condition} {v w : Value} (hfield : Sql.isIdentifier (Text.trim c.field) = true)
include hfield

theorem emitsAs_compare {op : Comparison} (hop : c.operator = some (.compare op))
    (hvalue : Value.ofJson? c.value = some v) (hv : v.isNull = false) :
    EmitsAs c (.compare (Text.trim c.field) op v) [v] fun d =>
      Text.trim c.field ++ " " ++ op.text ++ " " ++ d.literal v := by
  have h := EmitsAs.of_compiled (condition_compare hfield hop (scalar_eq hvalue hv _))
  simpa only [Expr.pieces, Piece.values, Piece.inlineText, String.append_empty] using h

theorem emitsAs_between {negated : Bool} {low high : Json} (hop : c.operator = some (.between negated))
    (hvalue : c.value = .array [low, high]) (hlow : Value.ofJson? low = some v) (hv : v.isNull = false)
    (hhigh : Value.ofJson? high = some w) (hw : w.isNull = false) :
    EmitsAs c (.between (Text.trim c.field) v w negated) [v, w] fun d =>
      Text.trim c.field ++ (if negated then " NOT BETWEEN " else " BETWEEN ") ++ d.literal v ++ " AND " ++
        d.literal w := by
  have h := EmitsAs.of_compiled (condition_between hfield hop (range_eq hvalue hlow hv hhigh hw _))
  simpa only [Expr.pieces, Piece.values, Piece.inlineText, String.append_empty, String.append_assoc] using h

end Places

theorem emits_of_ofJson {n : Int} {v : Value} (h : Value.ofJson? (.int n) = some v) (hv : v.isNull = false) :
    Emits n v where
  compared hfield hop hvalue := emitsAs_compare hfield hop (hvalue ▸ h) hv
  low hfield hop hvalue hhigh hw := emitsAs_between hfield hop hvalue h hv hhigh hw
  high hfield hop hvalue hlow hw := emitsAs_between hfield hop hvalue hlow hw h hv

/-- A number has one value. -/
theorem Emits.unique {n : Int} {v w : Value} (hv : Emits n v) (hw : Emits n w) : v = w := by
  let sample : Condition := ⟨"n", some (.compare .eq), .int n, .and, false⟩
  have hfield : Sql.isIdentifier (Text.trim sample.field) = true := by
    show Sql.isIdentifier (Text.trim "n") = true
    decide
  have hcompiled := (hv.compared (c := sample) hfield rfl rfl).compiled.symm.trans
    (hw.compared (c := sample) hfield rfl rfl).compiled
  cases hcompiled
  rfl

/-! ### What becomes of a number -/

/-- The value of a whole number. -/
def wholeValue (n : Int) : Value :=
  if n ≤ largestInt then .int n else .float (Double.ofMultiple (Double.roundDiv n.toNat 2048))

/-- The number that a whole number is passed on as. -/
def passedOn (n : Int) : Int := if n ≤ largestInt then n else 2048 * Double.roundDiv n.toNat 2048

section Numbers
variable {m n : Int}

/-- A number beyond the largest of a column, without its sign. -/
theorem beyond_bounds (h : IsWhole n) (hn : largestInt < n) : 2 ^ 63 ≤ n.toNat ∧ n.toNat < 2 ^ 64 := by
  have hlargest : largestInt = 2 ^ 63 - 1 := rfl
  obtain ⟨-, hmost⟩ := h
  omega

theorem roundDiv_beyond (h : IsWhole n) (hn : largestInt < n) :
    2 ^ 52 ≤ Double.roundDiv n.toNat 2048 ∧ Double.roundDiv n.toNat 2048 ≤ 2 ^ 53 := by
  have hbounds := beyond_bounds h hn
  have hround := Double.roundDiv_bounds n.toNat 2048
  omega

theorem ofJson_whole (h : IsWhole n) : Value.ofJson? (.int n) = some (wholeValue n) := by
  show some _ = _
  rw [wholeValue]
  split_ifs with hn
  · rfl
  · rw [Double.ofNat_eq (beyond_bounds h (Int.not_le.mp hn))]

theorem emits_wholeValue (h : IsWhole n) : Emits n (wholeValue n) := by
  refine emits_of_ofJson (ofJson_whole h) ?_
  rw [wholeValue]
  split_ifs <;> rfl

theorem wholeValue_rational (n : Int) : (wholeValue n).rational? = some (passedOn n : Rat) := by
  rw [wholeValue, passedOn]
  split_ifs
  · rfl
  · exact (Double.ofMultiple_rational _).trans (congrArg some (by push_cast; rfl))

theorem passedOn_eq_self_iff : passedOn n = n ↔ n ≤ largestInt ∨ 2048 ∣ n := by
  rw [passedOn]
  split_ifs with hn
  · exact iff_of_true rfl (.inl hn)
  · have hround := Double.mul_roundDiv_eq_iff (n := n.toNat) (show 0 < 2048 by decide)
    have hlargest : largestInt = 2 ^ 63 - 1 := rfl
    omega

/-- No number is passed on as one that is more than 1024 away. -/
theorem passedOn_near (n : Int) : (passedOn n - n).natAbs ≤ 1024 := by
  rw [passedOn]
  split_ifs with hn
  · rw [Int.sub_self]
    decide
  · have hlargest : largestInt = 2 ^ 63 - 1 := rfl
    have hround : (n.toNat : Int) - 1024 ≤ 2048 * Double.roundDiv n.toNat 2048 ∧
        2048 * Double.roundDiv n.toNat 2048 ≤ n.toNat + 1024 := by
      rw [Double.roundDiv]
      split_ifs <;> omega
    omega

/-- Rounding leaves no number on the other side of the largest one of a column. -/
theorem passedOn_le_iff (h : IsWhole n) : passedOn n ≤ largestInt ↔ n ≤ largestInt := by
  rw [passedOn]
  split_ifs with hn
  · rfl
  · have hround := roundDiv_beyond h (Int.not_le.mp hn)
    have hlargest : largestInt = 2 ^ 63 - 1 := rfl
    omega

/-- Numbers have the same value exactly if they are passed on as one. -/
theorem wholeValue_eq_iff (hm : IsWhole m) (hn : IsWhole n) :
    wholeValue m = wholeValue n ↔ passedOn m = passedOn n := by
  constructor
  · intro h
    have hexact := wholeValue_rational m
    rw [h, wholeValue_rational, Option.some.injEq, Int.cast_inj] at hexact
    exact hexact.symm
  · intro h
    have hsides : m ≤ largestInt ↔ n ≤ largestInt := by
      rw [← passedOn_le_iff hm, h, passedOn_le_iff hn]
    rw [passedOn, passedOn] at h
    rw [wholeValue, wholeValue]
    by_cases hwithin : n ≤ largestInt
    · rw [if_pos (hsides.mpr hwithin), if_pos hwithin] at h ⊢
      rw [h]
    · rw [if_neg (mt hsides.mp hwithin), if_neg hwithin] at h ⊢
      have hround : Double.roundDiv m.toNat 2048 = Double.roundDiv n.toNat 2048 := by omega
      rw [hround]

/-- The number that a literal shows is passed on as the one it stands for. -/
theorem wholeValue_shows (h : IsWhole n) :
    ∃ shown : Int, (∀ d : Dialect, d.literal (wholeValue n) = toString shown) ∧ passedOn shown = passedOn n ∧
      (n ≤ largestInt → shown = n) ∧ (largestInt < n → 1000 ∣ shown) := by
  rcases Int.lt_or_le largestInt n with hbeyond | hwithin
  · obtain ⟨shown, hthousands, hleast, hround, hliteral⟩ := Double.literal_whole (roundDiv_beyond h hbeyond)
    have hlargest : largestInt = 2 ^ 63 - 1 := rfl
    have hshown : ¬ (shown : Int) ≤ largestInt := by omega
    refine ⟨shown, fun d => ?_, ?_, fun hn => absurd hbeyond (Int.not_lt.mpr hn),
      fun _ => Int.natCast_dvd_natCast.mpr hthousands⟩
    · rw [wholeValue, if_neg (Int.not_le.mpr hbeyond), Dialect.literal, hliteral]
      rfl
    · rw [passedOn, passedOn, if_neg hshown, if_neg (Int.not_le.mpr hbeyond), Int.toNat_natCast, hround]
  · refine ⟨n, fun d => ?_, rfl, fun _ => rfl, fun hn => absurd hn (Int.not_lt.mpr hwithin)⟩
    rw [wholeValue, if_pos hwithin, Dialect.literal]

end Numbers

/-- **What a filter makes of a whole number.** A comparison and either bound of a range hold one value, as a
parameter or as its literal. It is the number up to the largest of a column and at the multiples of 2048, and
never more than 1024 away. Its literal shows the number's own figures up to the largest of a column, and beyond
it a multiple of a thousand that stands for the same value. So numbers compile alike exactly if they are passed
on as one number, while a pattern test shows the figures of each. -/
theorem whole_number_kept_iff {n : Int} (h : IsWhole n) :
    ∃ (v : Value) (shown : Int), Emits n v ∧ v.rational? = some (passedOn n : Rat) ∧
      (passedOn n = n ↔ n ≤ largestInt ∨ 2048 ∣ n) ∧ (passedOn n - n).natAbs ≤ 1024 ∧
      (∀ d : Dialect, d.literal v = toString shown) ∧ passedOn shown = passedOn n ∧
      (n ≤ largestInt → shown = n) ∧ (largestInt < n → 1000 ∣ shown) ∧
      (∀ m, IsWhole m → (Emits m v ↔ passedOn m = passedOn n)) ∧
      ∀ (c : Condition) (p : Placement), Sql.isIdentifier (Text.trim c.field) = true →
        c.operator = some (.like p) → c.value = .int n →
        condition c = .ok (negate c.negated
          (.like (Text.trim c.field) (.text (pattern (toString n) p)) (p == .nowhere))) := by
  obtain ⟨shown, hliteral, hsame, hwithin, hbeyond⟩ := wholeValue_shows h
  refine ⟨wholeValue n, shown, emits_wholeValue h, wholeValue_rational n, passedOn_eq_self_iff, passedOn_near n,
    hliteral, hsame, hwithin, hbeyond, fun m hm => ?_, fun c p hfield hop hvalue => ?_⟩
  · rw [← wholeValue_eq_iff hm h]
    exact ⟨fun hemits => (emits_wholeValue hm).unique hemits, fun heq => heq ▸ emits_wholeValue hm⟩
  · refine condition_like hfield hop ?_
    rw [likeText, hvalue]
    rfl

/-- The second multiple of 2048 beyond the numbers of a column: as a parameter it is itself, but a literal
shows another number. -/
theorem next_multiple_kept :
    IsWhole 9223372036854777856 ∧ ∃ (v : Value) (shown : Int), Emits 9223372036854777856 v ∧
      v.rational? = some ((9223372036854777856 : Int) : Rat) ∧ (∀ d : Dialect, d.literal v = toString shown) ∧
      shown ≠ 9223372036854777856 ∧ passedOn shown = 9223372036854777856 := by
  have h : IsWhole 9223372036854777856 := by decide
  obtain ⟨v, shown, hemits, hexact, hkept, -, hliteral, hsame, -, hbeyond, -⟩ := whole_number_kept_iff h
  have hitself : passedOn 9223372036854777856 = 9223372036854777856 := hkept.mpr (.inr (by decide))
  refine ⟨h, v, shown, hemits, hexact.trans (congrArg (fun x : Int => some (x : Rat)) hitself), hliteral, ?_,
    hsame.trans hitself⟩
  rintro rfl
  exact absurd (hbeyond (by decide)) (by decide)

/-- Calls with this many inbound ones. -/
def inboundIs (n : Int) : Condition := ⟨"inbound", some (.compare .eq), .int n, .and, false⟩

/-- Two counts beyond the numbers of a column: one filter, which shows the figures of neither. A pattern test
would show those of each. -/
theorem beyond_column_alike :
    ∃ v, (∀ n ∈ ([9223372036854775808, 9223372036854775809] : List Int), IsWhole n ∧
        EmitsAs (inboundIs n) (.compare "inbound" .eq v) [v] (fun _ => "inbound = 9223372036854776000") ∧
        likeText (inboundIs n) (.like .within) = .ok (toString n)) ∧
      v.rational? = some 9223372036854775808 := by
  have hliteral (d : Dialect) : d.literal (.float (.finite false (2 ^ 52) 11)) = "9223372036854776000" := by
    rw [Dialect.literal]
    decide +kernel
  refine ⟨.float (.finite false (2 ^ 52) 11), fun n hn => ?_, by decide +kernel⟩
  have hcases : n = 9223372036854775808 ∨ n = 9223372036854775809 := List.mem_pair.mp hn
  have hwhole : IsWhole n := by
    rcases hcases with rfl | rfl
    · decide
    · decide
  have hvalue : Value.ofJson? (.int n) = some (.float (.finite false (2 ^ 52) 11)) := by
    rcases hcases with rfl | rfl
    · decide +kernel
    · decide +kernel
  have htrim : Text.trim (inboundIs n).field = "inbound" := by
    show Text.trim "inbound" = "inbound"
    decide +kernel
  have htest := emitsAs_compare (c := inboundIs n) (htrim ▸ by decide) rfl hvalue rfl
  simp only [htrim, hliteral] at htest
  exact ⟨hwhole, htest, rfl⟩

end Compile

end BucketQuery
