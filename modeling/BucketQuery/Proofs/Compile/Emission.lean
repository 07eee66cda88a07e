import BucketQuery.Proofs.Compile.Blank
import BucketQuery.Proofs.Compile.Columns
import BucketQuery.Proofs.Text.Blank

/-! When a condition is emitted.

A condition has three parts that decide it: a field that is an identifier once blank space around it is
gone, an operator that is recognized, and a value of the shape that the operator needs. It compiles exactly
when all three are in order (`condition_ok_iff`), so neither its negation nor how it joins the node before
it matters. -/
namespace BucketQuery

open BucketQuery.Filter (Comparison Condition Operator Placement ValueShape)
open Sql (Value)

/-- A value has the form that an operator needs. -/
def Filter.ValueShape.Fits (v : Json) : ValueShape → Prop
  | .scalar => v.shape = .scalar
  | .range => v.shape = .pair
  | .none => True

/-- A condition has all that it needs: a field, an operator and a value of the right form. -/
structure Filter.Condition.Expressible (c : Condition) : Prop where
  field : Sql.isIdentifier (Text.trim c.field) = true
  operator : ∃ op shape, c.operator = some op ∧ op.shape? = some shape ∧ shape.Fits c.value

namespace Compile

section Outcomes
variable {c : Condition} {op : Operator}

theorem outcome_ok_iff {ε α : Type} {x : Except ε α} : outcome x = .ok () ↔ ∃ a, x = .ok a := by
  cases x with
  | error e => exact iff_of_false (by rintro ⟨⟩) (by rintro ⟨_, ⟨⟩⟩)
  | ok a => exact iff_of_true rfl ⟨a, rfl⟩

theorem scalar_ok_iff : (∃ v, scalar c op = .ok v) ↔ c.value.shape = .scalar := by
  rw [← outcome_ok_iff, scalar_outcome]
  cases c.value.shape <;> simp

theorem likeText_ok_iff : (∃ s, likeText c op = .ok s) ↔ c.value.shape = .scalar := by
  rw [← outcome_ok_iff, likeText_outcome]
  cases c.value.shape <;> simp

theorem range_ok_iff : (∃ bounds, range c op = .ok bounds) ↔ c.value.shape = .pair := by
  rw [← outcome_ok_iff, range_outcome]
  cases c.value.shape <;> simp

/-- Where the second step always succeeds, the first one decides. -/
theorem outcome_bind_of_total {ε α β : Type} {x : Except ε α} {f : α → Except ε β}
    (h : ∀ a, ∃ b, f a = .ok b) : outcome (x >>= f) = outcome x := by
  cases x with
  | error e => rfl
  | ok a =>
    obtain ⟨b, hb⟩ := h a
    show outcome (f a) = _
    rw [hb]
    rfl

theorem bind_ok_iff_of_total {ε α β : Type} {x : Except ε α} {f : α → Except ε β}
    (h : ∀ a, ∃ b, f a = .ok b) : (∃ b, x >>= f = .ok b) ↔ ∃ a, x = .ok a := by
  rw [← outcome_ok_iff, outcome_bind_of_total h, outcome_ok_iff]

theorem fits_iff (shape : ValueShape) {v : Json} :
    (∃ s, some shape = some s ∧ s.Fits v) ↔ shape.Fits v := by
  simp

theorem test_ok_iff (column : String) :
    (∃ e, test c column op = .ok e) ↔ ∃ shape, op.shape? = some shape ∧ shape.Fits c.value := by
  cases op with
  | compare cmp =>
    exact ((bind_ok_iff_of_total fun v => ⟨_, rfl⟩).trans scalar_ok_iff).trans (fits_iff .scalar).symm
  | like p =>
    exact ((bind_ok_iff_of_total fun s => ⟨_, rfl⟩).trans likeText_ok_iff).trans (fits_iff .scalar).symm
  | between negated =>
    exact ((bind_ok_iff_of_total fun bounds => ⟨_, rfl⟩).trans range_ok_iff).trans (fits_iff .range).symm
  | isNull negated => exact iff_of_true ⟨_, rfl⟩ ⟨.none, rfl, trivial⟩
  | isTrue wanted => exact iff_of_true ⟨_, rfl⟩ ⟨.none, rfl, trivial⟩
  | unrecognized text => exact iff_of_false (by rintro ⟨_, ⟨⟩⟩) (by rintro ⟨_, ⟨⟩, -⟩)

end Outcomes

/-- Negation has no part in whether a condition compiles, nor in why it does not. -/
theorem outcome_negated (c : Condition) (negated : Bool) :
    outcome (condition {c with negated}) = outcome (condition c) := by
  have htest (column : String) (op : Operator) :
      outcome (test {c with negated} column op) = outcome (test c column op) := by
    cases op with
    | compare cmp =>
      exact (outcome_bind_of_total fun v => ⟨_, rfl⟩).trans
        (outcome_bind_of_total (x := scalar c _) fun v => ⟨_, rfl⟩).symm
    | like p =>
      exact (outcome_bind_of_total fun s => ⟨_, rfl⟩).trans
        (outcome_bind_of_total (x := likeText c _) fun s => ⟨_, rfl⟩).symm
    | between flipped =>
      exact (outcome_bind_of_total fun bounds => ⟨_, rfl⟩).trans
        (outcome_bind_of_total (x := range c _) fun bounds => ⟨_, rfl⟩).symm
    | isNull _ | isTrue _ | unrecognized _ => rfl
  have hcomplete : ({c with negated} : Condition).complete = c.complete := rfl
  unfold condition
  rw [hcomplete]
  dsimp only
  cases c.operator with
  | none => rfl
  | some op =>
    dsimp only
    split_ifs
    · rfl
    · exact htest _ _
    · rfl

theorem not_allBlank_of_identifier {field : String} (h : Sql.isIdentifier (Text.trim field) = true) :
    Text.allBlank field = false := by
  rw [Bool.eq_false_iff, ne_eq, Text.allBlank_iff]
  intro hempty
  rw [hempty] at h
  exact absurd h (by decide)

/-- On a column and with an operator that is recognized, a condition is its test. -/
theorem condition_eq_test {c : Condition} {op : Operator} (hfield : Sql.isIdentifier (Text.trim c.field) = true)
    (hop : c.operator = some op) (hrecognized : op.recognized = true) :
    condition c = test c (Text.trim c.field) op := by
  have hcomplete : c.complete = true := by
    rw [Condition.complete, hop, not_allBlank_of_identifier hfield, Option.any_some, hrecognized]
    rfl
  unfold condition
  rw [hop]
  dsimp only
  rw [hcomplete, if_pos hfield]
  rfl

theorem condition_ok_iff (c : Condition) : (∃ e, condition c = .ok e) ↔ c.Expressible := by
  constructor
  · rintro ⟨e, h⟩
    obtain ⟨op, hop, hfield, htest⟩ := test_of_condition h
    obtain ⟨shape, hshape⟩ := (test_ok_iff _).mp ⟨e, htest⟩
    exact ⟨hfield, op, shape, hop, hshape⟩
  · intro h
    obtain ⟨op, shape, hop, hshape, hfits⟩ := h.operator
    have hrecognized : op.recognized = true := by
      rw [Operator.recognized, hshape]
      rfl
    rw [condition_eq_test h.field hop hrecognized]
    exact (test_ok_iff _).mpr ⟨shape, hshape, hfits⟩

/-! ### What is emitted -/

theorem scalar_eq {c : Condition} {v : Value} (hvalue : Value.ofJson? c.value = some v) (hv : v.isNull = false)
    (op : Operator) : scalar c op = .ok v := by
  rw [scalar, hvalue]
  cases v with
  | null => cases hv
  | _ => rfl

theorem range_eq {c : Condition} {low high : Json} {v w : Value} (hvalue : c.value = .array [low, high])
    (hlow : Value.ofJson? low = some v) (hv : v.isNull = false) (hhigh : Value.ofJson? high = some w)
    (hw : w.isNull = false) (op : Operator) : range c op = .ok (v, w) := by
  rw [range, hvalue]
  simp only [hlow, hhigh, hv, hw, Bool.or_self, Bool.false_eq_true, if_false]

section Tests
variable {c : Condition} (hfield : Sql.isIdentifier (Text.trim c.field) = true)
include hfield

theorem condition_compare {op : Comparison} {v : Value} (hop : c.operator = some (.compare op))
    (hv : scalar c (.compare op) = .ok v) :
    condition c = .ok (negate c.negated (.compare (Text.trim c.field) op v)) := by
  rw [condition_eq_test hfield hop rfl, test, hv]
  rfl

theorem condition_like {p : Placement} {s : String} (hop : c.operator = some (.like p))
    (hs : likeText c (.like p) = .ok s) :
    condition c =
      .ok (negate c.negated (.like (Text.trim c.field) (.text (pattern s p)) (p == .nowhere))) := by
  rw [condition_eq_test hfield hop rfl, test, hs]
  rfl

theorem condition_between {negated : Bool} {v w : Value} (hop : c.operator = some (.between negated))
    (hvw : range c (.between negated) = .ok (v, w)) :
    condition c = .ok (negate c.negated (.between (Text.trim c.field) v w negated)) := by
  rw [condition_eq_test hfield hop rfl, test, hvw]
  rfl

end Tests

end Compile

end BucketQuery
