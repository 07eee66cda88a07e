import BucketQuery.Proofs.Compile.Erase
import BucketQuery.Proofs.Compile.WholeNumber
import BucketQuery.Proofs.Filter.Reading

/-! What a filter says once it is compiled.

A condition that compiles says what the JSON in it says, but for whole numbers beyond those of a column, which
are rounded on the way (`Condition.rounded`). A condition says the same with its numbers rounded, on all rows of
all warehouses, exactly if each of them still shows its own figures as a literal (`rounded_alike_iff`). Main
statement, `truths_kept`: what is kept of siblings says, with its numbers rounded, what they emit. -/
namespace BucketQuery

open BucketQuery.Filter (Comparison Condition Node Operator Placement)
open Sql (Cells Dialect Expr Operand Row Truth Value holds joined negateIf negateIf_inj)
open Sql.Value (largestInt)

/-! ### Rounding -/

namespace Filter

/-- A scalar with a whole number beyond those of a column made a binary64 number. -/
def rounded : Json → Json
  | .number (.int n) => if n ≤ largestInt then .int n else .float (Double.ofNat n.toNat)
  | v => v

def roundedBounds : Json → Json
  | .array [low, high] => .array [rounded low, rounded high]
  | v => v

/-- What an operator compares with, rounded. A pattern shows the figures of a number as they are. -/
def roundedFor : Option Operator → Json → Json
  | some (.compare _), v => rounded v
  | some (.between _), v => roundedBounds v
  | some (.like _), v | some (.isNull _), v | some (.isTrue _), v | some (.unrecognized _), v | none, v => v

def Condition.rounded (c : Condition) : Condition := {c with value := roundedFor c.operator c.value}

/-- The whole number of a scalar that is one. -/
def whole? : Json → Option Int
  | .number (.int n) => some n
  | _ => none

/-- The whole numbers among two bounds. -/
def wholeBounds : Json → List Int
  | .array [low, high] => (whole? low).toList ++ (whole? high).toList
  | _ => []

/-- The whole numbers that a condition compares with. -/
def Condition.wholes (c : Condition) : List Int :=
  match c.operator with
  | some (.compare _) => (whole? c.value).toList
  | some (.between _) => wholeBounds c.value
  | some (.like _) | some (.isNull _) | some (.isTrue _) | some (.unrecognized _) | none => []

end Filter

namespace Compile

open BucketQuery.Filter (rounded roundedBounds roundedFor scalar? whole? wholeBounds)

theorem scalar_rounded (v : Json) : scalar? (rounded v) = (Value.ofJson? v).map Value.operand := by
  cases v with
  | number x =>
    cases x with
    | int n =>
      by_cases hn : n ≤ largestInt
      · simp only [rounded, Value.ofJson?, if_pos hn]
        rfl
      · simp only [rounded, Value.ofJson?, if_neg hn]
        rfl
    | float x => rfl
  | null | bool b | string s | array vs | object fields => rfl

/-- What is a scalar once it is rounded was one before. -/
theorem scalar_of_rounded {v : Json} {o : Operand} (h : scalar? (rounded v) = some o) :
    ∃ a, scalar? v = some a := by
  rw [scalar_rounded] at h
  cases v with
  | number x => cases x <;> exact ⟨_, rfl⟩
  | null | bool b | string s => exact ⟨_, rfl⟩
  | array vs | object fields => cases h

theorem mask_eq_pattern (p : Placement) (s : String) : p.mask s = pattern s p := by
  cases p with
  | within | nowhere => rfl
  | start =>
    show "" ++ s ++ "%" = s ++ "%"
    rw [String.empty_append]
  | finish =>
    show "%" ++ s ++ "" = "%" ++ s
    rw [String.append_empty]

/-! ### Meanings -/

section Meaning
variable {Cell : Type} {w : Cells Cell} {row : Row Cell}

theorem truth_negate (negated : Bool) (e : Expr) :
    (negate negated e).truth w row = negateIf negated (e.truth w row) := by
  cases negated <;> rfl

theorem scalar_of_ok {c : Condition} {op : Operator} {v : Value} (h : scalar c op = .ok v) :
    scalar? (rounded c.value) = some v.operand := by
  unfold scalar at h
  split at h
  · cases h
  · rename_i v' hv
    cases h
    rw [scalar_rounded, hv]
    rfl
  · cases h

theorem patternText_of_ok {c : Condition} {op : Operator} {s : String} (h : likeText c op = .ok s) :
    Filter.patternText? c.value = some s := by
  unfold likeText at h
  cases hv : c.value with
  | string s' =>
    rw [hv] at h
    cases h
    rfl
  | number n =>
    rw [hv] at h
    cases h
    rfl
  | bool b =>
    rw [hv] at h
    cases h
    rfl
  | _ =>
    rw [hv] at h
    cases h

theorem bounds_of_ok {c : Condition} {op : Operator} {bounds : Value × Value}
    (h : range c op = .ok bounds) : ∃ low high, c.value = .array [low, high] ∧
      scalar? (rounded low) = some bounds.1.operand ∧ scalar? (rounded high) = some bounds.2.operand := by
  unfold range at h
  split at h
  · rename_i low high hv
    split at h
    · rename_i l u hl hu
      split at h
      · cases h
      · cases h
        refine ⟨low, high, hv, ?_, ?_⟩
        · rw [scalar_rounded, hl, Option.map_some]
        · rw [scalar_rounded, hu, Option.map_some]
    · cases h
  · cases h

theorem rounded_compare {c : Condition} {op : Comparison} (hop : c.operator = some (.compare op)) :
    c.rounded.value = rounded c.value := by
  simp only [Condition.rounded, hop, roundedFor]

theorem rounded_between {c : Condition} {negated : Bool} (hop : c.operator = some (.between negated)) :
    c.rounded.value = roundedBounds c.value := by
  simp only [Condition.rounded, hop, roundedFor]

/-- A condition that compiles means what it says with its numbers rounded. -/
theorem truth_condition {c : Condition} {e : Expr} (h : condition c = .ok e) :
    c.rounded.truth? w row = some (e.truth w row) := by
  obtain ⟨op, ho, _, ht⟩ := test_of_condition h
  cases op with
  | compare cmp =>
    obtain ⟨v, hv, ht⟩ := ok_of_bind ht
    cases ht
    have hscalar := rounded_compare ho ▸ scalar_of_ok hv
    rw [Condition.truth?_compare (c := c.rounded) ho hscalar, truth_negate]
    rfl
  | like p =>
    obtain ⟨s, hs, ht⟩ := ok_of_bind ht
    cases ht
    have hvalue : c.rounded.value = c.value := by simp only [Condition.rounded, ho, roundedFor]
    have htext := hvalue ▸ patternText_of_ok hs
    rw [Condition.truth?_like (c := c.rounded) ho htext, truth_negate, mask_eq_pattern]
    rfl
  | between negated =>
    obtain ⟨bounds, hb, ht⟩ := ok_of_bind ht
    cases ht
    obtain ⟨low, high, hvalue, hlow, hhigh⟩ := bounds_of_ok hb
    have hbounds : Filter.bounds? c.rounded.value = some (bounds.1.operand, bounds.2.operand) := by
      rw [rounded_between ho, hvalue]
      exact Filter.bounds?_pair hlow hhigh
    rw [Condition.truth?_between (c := c.rounded) ho hbounds, truth_negate]
    rfl
  | isNull negated =>
    cases ht
    unfold Condition.truth? Condition.rounded
    rw [ho]
    dsimp only
    rw [Expr.truth]
    cases negated <;> cases c.negated <;> cases row (Text.trim c.field) <;> rfl
  | isTrue wanted =>
    cases ht
    unfold Condition.truth? Condition.rounded
    rw [ho]
    dsimp only
    rw [Expr.truth]
    cases wanted != c.negated <;> simp [Cells.value, Value.operand, Cells.operand]
  | unrecognized text => cases ht

/-- A condition that compiles means something before its numbers are rounded. -/
theorem truth_isSome {c : Condition} {e : Expr} (h : condition c = .ok e) : (c.truth? w row).isSome = true := by
  obtain ⟨op, ho, _, ht⟩ := test_of_condition h
  cases op with
  | compare cmp =>
    obtain ⟨v, hv, -⟩ := ok_of_bind ht
    obtain ⟨a, ha⟩ := scalar_of_rounded (scalar_of_ok hv)
    rw [Condition.truth?_compare ho ha]
    rfl
  | like p =>
    obtain ⟨s, hs, -⟩ := ok_of_bind ht
    rw [Condition.truth?_like ho (patternText_of_ok hs)]
    rfl
  | between negated =>
    obtain ⟨bounds, hb, -⟩ := ok_of_bind ht
    obtain ⟨low, high, hvalue, hlow, hhigh⟩ := bounds_of_ok hb
    obtain ⟨a, ha⟩ := scalar_of_rounded hlow
    obtain ⟨b, hb⟩ := scalar_of_rounded hhigh
    rw [Condition.truth?_between ho (hvalue ▸ Filter.bounds?_pair ha hb)]
    rfl
  | isNull negated | isTrue wanted =>
    unfold Condition.truth?
    rw [ho]
    rfl
  | unrecognized text => cases ht

/-- The meaning of items as one expression. -/
theorem truth_expr {em : Emitted} {e : Expr} (h : em.expr? = some e) :
    e.truth w row = joined (em.items.map fun item => (item.1, item.2.truth w row)) := by
  rcases expr_cases h with ⟨joins, hitems⟩ | ⟨_, rfl⟩
  · rw [hitems]
    exact (Sql.joined_singleton _ _).symm
  · show joined (Expr.itemTruths w row em.items) = _
    rw [Expr.itemTruths_eq]

/-- What is kept of siblings means, rounded, what they emit. -/
theorem truths_kept (deepest : Nat) (around : List Nat) (i j : Nat) (ns : List Node) :
    Node.truths? (fun c => c.rounded.truth? w row) (kept deepest around.length ns) =
      some ((nodes deepest around i j ns).items.map fun item => (item.1, item.2.truth w row)) := by
  fun_induction nodes deepest around i j ns with
  | case1 =>
    rw [kept]
    rfl
  | case2 around i j c rest later e hok ih =>
    rw [kept_condition_ok hok, Node.truths?, Node.truth?, truth_condition hok, ih]
    rfl
  | case3 around i j c rest later why herr ih =>
    rw [kept_condition_error herr]
    exact ih
  | case4 around i j joins children rest later path hdeep ih =>
    rw [kept_group_deep hdeep]
    exact ih
  | case5 around i j joins children rest later hdeep inner e he ih ihinner =>
    rw [length_inside] at ihinner
    rw [kept_group hdeep (kept_inner_ne_nil he), Node.truths?, Node.truth?, ihinner, ih, Option.map_some,
      ← truth_expr he]
    rfl
  | case6 around i j joins children rest later path hdeep inner he ih ihinner =>
    rw [kept_group_empty ((kept_inner_eq_nil_iff ..).mpr he)]
    exact ih

end Meaning

/-! ### Numbers that are kept -/

section Kept
variable {c : Condition} {n : Int}

/-- A filter shows a whole number by its own figures: as it stays one, or else as its literal. What a driver is
handed as a parameter is told by `whole_number_kept_iff`. -/
def Kept (n : Int) : Prop :=
  n ≤ largestInt ∨ ∀ d : Dialect, d.literal (.float (Double.ofNat n.toNat)) = toString n

theorem operand_of_toString {d : Dialect} {v : Value} (hv : v.content? = none) (h : d.literal v = toString n) :
    v.operand = .number n :=
  Sql.operand_eq_of_literal (w := .int n) hv rfl h

/-- A number that is kept is read as it was. -/
theorem scalar_rounded_of_kept {v : Json} (h : ∀ n ∈ whole? v, Kept n) : scalar? (rounded v) = scalar? v := by
  cases v with
  | number x =>
    cases x with
    | int n =>
      rcases h n rfl with hn | hliteral
      · rw [rounded, if_pos hn]
        rfl
      · have hshown : (Value.float (Double.ofNat n.toNat)).operand = .number n :=
          operand_of_toString rfl (hliteral .duckdb)
        rw [rounded]
        split_ifs
        · rfl
        · exact congrArg some hshown
    | float x => rfl
  | null | bool b | string s | array vs | object fields => rfl

theorem wholeValue_content (n : Int) : (wholeValue n).content? = none := by
  rw [wholeValue]
  split_ifs <;> rfl

theorem bounds_rounded_of_kept {v : Json} (h : ∀ n ∈ wholeBounds v, Kept n) :
    Filter.bounds? (roundedBounds v) = Filter.bounds? v := by
  fun_cases roundedBounds v with
  | case1 low high =>
    have hlow := scalar_rounded_of_kept fun n hn => h n (List.mem_append_left _ (Option.mem_toList.mpr hn))
    have hhigh := scalar_rounded_of_kept fun n hn => h n (List.mem_append_right _ (Option.mem_toList.mpr hn))
    rw [Filter.bounds?, Filter.bounds?, hlow, hhigh]
  | case2 hpair => rfl

/-- A whole number is read as the one that its literal shows. -/
theorem rounded_whole (h : IsWhole n) :
    ∃ shown : Int, scalar? (rounded (.int n)) = some (.number shown) ∧ (shown = n ↔ Kept n) := by
  obtain ⟨shown, hliteral, -, hwithin, -⟩ := wholeValue_shows h
  have hoperand : (wholeValue n).operand = .number shown :=
    operand_of_toString (wholeValue_content n) (hliteral .duckdb)
  refine ⟨shown, ?_, fun heq => ?_, fun hkept => ?_⟩
  · rw [scalar_rounded, ofJson_whole h, Option.map_some, hoperand]
  · refine (Int.lt_or_le largestInt n).elim (fun hn => .inr fun d => ?_) .inl
    have hvalue : wholeValue n = .float (Double.ofNat n.toNat) := by
      rw [wholeValue, if_neg (Int.not_le.mpr hn), Double.ofNat_eq (beyond_bounds h hn)]
    rw [← hvalue, hliteral d, heq]
  · have hread := scalar_rounded_of_kept (v := .int n) fun m hm => Option.some.inj hm ▸ hkept
    rw [scalar_rounded, ofJson_whole h, Option.map_some, hoperand] at hread
    have hcast : (shown : Rat) = n := (Operand.number.inj (Option.some.inj hread))
    exact Int.cast_injective hcast

/-- With its numbers kept, a condition says the same. -/
theorem rounded_alike (h : ∀ n ∈ c.wholes, Kept n) {Cell : Type} (w : Cells Cell) (row : Row Cell) :
    c.rounded.truth? w row = c.truth? w row := by
  unfold Condition.truth? Condition.rounded
  unfold Condition.wholes at h
  cases hop : c.operator with
  | none => rfl
  | some op =>
    rw [hop] at h
    cases op with
    | compare op =>
      have hscalar := scalar_rounded_of_kept fun n hn => h n (Option.mem_toList.mpr hn)
      dsimp only [roundedFor]
      rw [hscalar]
    | between negated =>
      have hbounds := bounds_rounded_of_kept h
      dsimp only [roundedFor]
      rw [hbounds]
    | like p | isNull negated | isTrue wanted | unrecognized text => rfl

end Kept

/-! ### Numbers that are not kept -/

/-- A warehouse that has the operands for cells, and one cell more. That passes every comparison, but one with a
single operand only. -/
def probing (told : Comparison) (a : Operand) : Cells (Option Operand) where
  number x := some (.number x)
  text s := some (.text s)
  compare
    | op, none, some o => op != told || o == a
    | op, some (.number x), some (.number y) => holds x y op
    | _, _, _ => false
  like _ _ := false
  numbers _ _ _ := rfl

section Told
variable {a o a' o' : Operand}

theorem probing_compares (op told : Comparison) (ho : o ≠ .null) :
    (probing told a).compares op (some none) ((probing told a).operand o) =
      .ofBool (op != told || o == a) := by
  cases o with
  | null => exact absurd rfl ho
  | number x | text s => rfl

theorem probing_told (told : Comparison) (ho : o ≠ .null) :
    (probing told a).compares told (some none) ((probing told a).operand o) = .ofBool (o == a) := by
  rw [probing_compares told told ho, bne_self_eq_false, Bool.false_or]

theorem probing_other {op told : Comparison} (h : op ≠ told) (o : Operand) :
    (probing told a).compares op (some none) ((probing told a).operand o) ≠ .false := by
  cases o with
  | null => exact fun heq => by cases heq
  | number x | text s =>
    rw [probing_compares op told (by rintro ⟨⟩), bne_iff_ne.mpr h, Bool.true_or]
    exact fun heq => by cases heq

/-- A comparison tells all operands apart that are not null. -/
theorem operand_of_compares (op : Comparison) (ho : o ≠ .null) (ha : a ≠ .null)
    (h : ∀ {Cell : Type} (w : Cells Cell) (cell : Option Cell),
      w.compares op cell (w.operand o) = w.compares op cell (w.operand a)) : o = a := by
  have htold := h (probing op a) (some none)
  rw [probing_told op ho, probing_told op ha, beq_self_eq_true] at htold
  exact beq_iff_eq.mp (Truth.ofBool_eq_true.mp htold)

theorem told_of_and {b : Bool} {t t' : Truth} (ht : t' ≠ .false)
    (h : (Truth.ofBool b).and t = (Truth.ofBool true).and t') : b = true := by
  cases b with
  | true => rfl
  | false => exact absurd ((Truth.true_and t').symm.trans h.symm) ht

/-- So does either end of a range. -/
theorem operands_of_between
    (h : ∀ {Cell : Type} (w : Cells Cell) (cell : Option Cell),
      w.between cell (w.operand o) (w.operand o') = w.between cell (w.operand a) (w.operand a')) :
    (o ≠ .null → a ≠ .null → o = a) ∧ (o' ≠ .null → a' ≠ .null → o' = a') := by
  constructor
  · intro ho ha
    have htold := h (probing .ge a) (some none)
    unfold Cells.between at htold
    rw [probing_told .ge ho, probing_told .ge ha, beq_self_eq_true] at htold
    exact beq_iff_eq.mp (told_of_and (probing_other (by decide) a') htold)
  · intro ho ha
    have htold := h (probing .le a') (some none)
    unfold Cells.between at htold
    rw [probing_told .le ho, probing_told .le ha, beq_self_eq_true, Truth.and_comm,
      Truth.and_comm _ (Truth.ofBool true)] at htold
    exact beq_iff_eq.mp (told_of_and (probing_other (by decide) a) htold)

end Told

theorem eq_of_whole {v : Json} {n : Int} (h : n ∈ whole? v) : v = .int n := by
  unfold whole? at h
  split at h
  · cases h
    rfl
  · cases h

theorem kept_of_scalar {v : Json} {n : Int} (h : n ∈ whole? v) (hn : IsWhole n) {o a : Operand}
    (ho : scalar? (rounded v) = some o) (ha : scalar? v = some a)
    (halike : o ≠ .null → a ≠ .null → o = a) : Kept n := by
  obtain rfl := eq_of_whole h
  obtain rfl : .number n = a := Option.some.inj ha
  obtain ⟨shown, hshown, hkept⟩ := rounded_whole hn
  obtain rfl := Option.some.inj (ho.symm.trans hshown)
  have hcast : (shown : Rat) = n := Operand.number.inj (halike (by rintro ⟨⟩) (by rintro ⟨⟩))
  exact hkept.mp (Int.cast_injective hcast)

section Alike
variable {c : Condition}
  (halike : ∀ {Cell : Type} (w : Cells Cell) (row : Row Cell), c.rounded.truth? w row = c.truth? w row)
include halike

theorem kept_of_compare {op : Comparison} {o : Operand} (hop : c.operator = some (.compare op))
    (ho : scalar? (rounded c.value) = some o) : ∀ n ∈ whole? c.value, IsWhole n → Kept n := by
  intro n hn hwhole
  obtain ⟨a, ha⟩ := scalar_of_rounded ho
  refine kept_of_scalar hn hwhole ho ha fun ho' ha' => operand_of_compares op ho' ha' fun w cell => ?_
  have hread := halike w fun _ => cell
  rw [Condition.truth?_compare (c := c.rounded) hop (rounded_compare hop ▸ ho),
    Condition.truth?_compare hop ha] at hread
  exact negateIf_inj.mp (Option.some.inj hread)

theorem kept_of_between {negated : Bool} {low high : Json} {o o' : Operand}
    (hop : c.operator = some (.between negated)) (hvalue : c.value = .array [low, high])
    (ho : scalar? (rounded low) = some o) (ho' : scalar? (rounded high) = some o') :
    (∀ n ∈ whole? low, IsWhole n → Kept n) ∧ ∀ n ∈ whole? high, IsWhole n → Kept n := by
  obtain ⟨a, ha⟩ := scalar_of_rounded ho
  obtain ⟨a', ha'⟩ := scalar_of_rounded ho'
  have hrounded : Filter.bounds? c.rounded.value = some (o, o') := by
    rw [rounded_between hop, hvalue]
    exact Filter.bounds?_pair ho ho'
  have hbounds : Filter.bounds? c.value = some (a, a') := hvalue ▸ Filter.bounds?_pair ha ha'
  have hbetween {Cell : Type} (w : Cells Cell) (cell : Option Cell) :
      w.between cell (w.operand o) (w.operand o') = w.between cell (w.operand a) (w.operand a') := by
    have hread := halike w fun _ => cell
    rw [Condition.truth?_between (c := c.rounded) hop hrounded, Condition.truth?_between hop hbounds] at hread
    exact negateIf_inj.mp (negateIf_inj.mp (Option.some.inj hread))
  obtain ⟨hleft, hright⟩ := operands_of_between hbetween
  exact ⟨fun n hn hwhole => kept_of_scalar hn hwhole ho ha hleft,
    fun n hn hwhole => kept_of_scalar hn hwhole ho' ha' hright⟩

end Alike

/-- **Only numbers that are kept are read alike.** A condition that compiles says the same with its numbers
rounded, on all rows of all warehouses, exactly if the numbers are kept. -/
theorem rounded_alike_iff {c : Condition} {e : Expr} (h : condition c = .ok e)
    (hwhole : ∀ n ∈ c.wholes, IsWhole n) :
    (∀ {Cell : Type} (w : Cells Cell) (row : Row Cell), c.rounded.truth? w row = c.truth? w row) ↔
      ∀ n ∈ c.wholes, Kept n := by
  refine ⟨fun halike n hn => ?_, fun hkept _ w row => rounded_alike hkept w row⟩
  have hn' := hwhole n hn
  obtain ⟨op, hop, _, ht⟩ := test_of_condition h
  unfold Condition.wholes at hn
  rw [hop] at hn
  cases op with
  | compare op =>
    obtain ⟨v, hv, -⟩ := ok_of_bind ht
    exact kept_of_compare halike hop (scalar_of_ok hv) n (Option.mem_toList.mp hn) hn'
  | between negated =>
    obtain ⟨bounds, hb, -⟩ := ok_of_bind ht
    obtain ⟨low, high, hvalue, hlow, hhigh⟩ := bounds_of_ok hb
    obtain ⟨hkeptLow, hkeptHigh⟩ := kept_of_between halike hop hvalue hlow hhigh
    have hmem : n ∈ (whole? low).toList ++ (whole? high).toList := by
      rw [hvalue] at hn
      exact hn
    rcases List.mem_append.mp hmem with hmem | hmem
    · exact hkeptLow n (Option.mem_toList.mp hmem) hn'
    · exact hkeptHigh n (Option.mem_toList.mp hmem) hn'
  | like p | isNull negated | isTrue wanted | unrecognized text => cases hn

end Compile

end BucketQuery
