import BucketQuery.Proofs.Compile.Emission
import BucketQuery.Proofs.Compile.Meaning
import Mathlib.Data.String.Basic
import Mathlib.Data.Sum.Order

/-! Negation is complement.

A condition is negated in one of three ways: a test is wrapped, a mark of the test is turned over, or
another state is asked for. In whatever way it is done, the negated condition compiles exactly when the
other one does, and is its NOT in three truth values (`negation_complements`). Where an operator has a
complement, taking that instead comes to the same, and doing both comes to nothing; for comparisons this is
because cells have an order and a null is unknown either way. -/
namespace BucketQuery

open BucketQuery.Filter (Comparison Condition Operator)
open Sql (Cells Row Truth negateIf)

/-! ### Complements -/

namespace Filter

def Comparison.complement : Comparison → Comparison
  | .eq => .ne
  | .ne => .eq
  | .gt => .le
  | .lt => .ge
  | .ge => .lt
  | .le => .gt

/-- The operator that tests for the opposite, if there is one: none says that a text does not start, or
does not end, with another. -/
def Operator.complement? : Operator → Option Operator
  | .compare op => some (.compare op.complement)
  | .like .within => some (.like .nowhere)
  | .like .nowhere => some (.like .within)
  | .like .start | .like .finish => none
  | .between negated => some (.between !negated)
  | .isNull negated => some (.isNull !negated)
  | .isTrue wanted => some (.isTrue !wanted)
  | .unrecognized _ => none

/-- With its negation turned over. -/
def Condition.toggled (c : Condition) : Condition := {c with negated := !c.negated}

/-- With another operator. -/
def Condition.testing (c : Condition) (op : Operator) : Condition := {c with operator := some op}

end Filter

namespace Sql

/-- How two things compare that have an order. -/
def orderTest {α : Type} [LinearOrder α] (a b : α) : Comparison → Bool
  | .eq => decide (a = b)
  | .ne => decide (a ≠ b)
  | .gt => decide (b < a)
  | .lt => decide (a < b)
  | .ge => decide (b ≤ a)
  | .le => decide (a ≤ b)

/-- The warehouse compares its cells by their order. -/
def Cells.Ordered {Cell : Type} [LinearOrder Cell] (w : Cells Cell) : Prop :=
  ∀ op a b, w.compare op a b = orderTest a b op

/-- Numbers by their values, in front of texts, and texts by their characters. A pattern without signs of its
own matches itself. -/
def Cells.sorted : Cells (Lex (Rat ⊕ String)) where
  number x := Sum.inlₗ x
  text s := Sum.inrₗ s
  compare op a b := orderTest a b op
  like a pattern := decide (a = pattern)
  numbers op x y := by cases op <;> simp [orderTest, holds]

/-- A cell of a column for truth values: 0, 1 or null. -/
def Cells.IsFlag {Cell : Type} (w : Cells Cell) (cell : Option Cell) : Prop :=
  ∀ a ∈ cell, a = w.number 0 ∨ a = w.number 1

theorem negateIf_not (negated : Bool) (t : Truth) : negateIf (!negated) t = (negateIf negated t).not := by
  cases negated
  · rfl
  · exact (Truth.not_not t).symm

/-- It does not matter which of two negations is turned over. -/
theorem negateIf_comm (a b : Bool) (t : Truth) : negateIf a (negateIf (!b) t) = negateIf (!a) (negateIf b t) := by
  cases a <;> cases b <;> cases t <;> rfl

theorem orderTest_complement {α : Type} [LinearOrder α] (a b : α) (op : Comparison) :
    orderTest a b op.complement = !orderTest a b op := by
  cases op <;> simp only [orderTest, Comparison.complement, ← decide_not, not_lt, not_le, not_not,
    ne_eq]

theorem Cells.Ordered.compares_complement {Cell : Type} [LinearOrder Cell] {w : Cells Cell} (h : w.Ordered)
    (op : Comparison) (x y : Option Cell) : w.compares op.complement x y = (w.compares op x y).not := by
  cases x with
  | none => rfl
  | some a =>
    cases y with
    | none => rfl
    | some b =>
      show Truth.ofBool (w.compare op.complement a b) = (Truth.ofBool (w.compare op a b)).not
      rw [h, h, orderTest_complement, Truth.ofBool_not]

/-- On a column for truth values, not being the one is being the other. -/
theorem Cells.compares_flag {Cell : Type} {w : Cells Cell} {cell : Option Cell} (h : w.IsFlag cell) (b : Bool) :
    w.compares .eq cell (some (w.number (if !b then 1 else 0))) =
      (w.compares .eq cell (some (w.number (if b then 1 else 0)))).not := by
  cases cell with
  | none => rfl
  | some a =>
    show Truth.ofBool (w.compare .eq a _) = (Truth.ofBool (w.compare .eq a _)).not
    rcases h a rfl with rfl | rfl <;> rw [w.numbers, w.numbers] <;> cases b <;> decide

end Sql

/-! ### Meanings -/

section Meaning
variable {Cell : Type} {w : Cells Cell} {row : Row Cell} {c : Condition}

/-- The negation of a condition says the opposite of it. -/
theorem Filter.Condition.truth?_toggled
    (h : ∀ wanted, c.operator = some (.isTrue wanted) → w.IsFlag (row (Text.trim c.field))) :
    c.toggled.truth? w row = (c.truth? w row).map Truth.not := by
  have hvalue {α : Type} (x : Option α) (f : α → Truth) :
      x.map (fun a => negateIf (!c.negated) (f a)) = (x.map fun a => negateIf c.negated (f a)).map Truth.not := by
    rw [Option.map_map]
    exact congrArg (x.map ·) (funext fun a => Sql.negateIf_not c.negated (f a))
  unfold Condition.truth? Condition.toggled
  cases hop : c.operator with
  | none => rfl
  | some op =>
    cases op with
    | compare op => exact hvalue (scalar? c.value) _
    | like p => exact hvalue (patternText? c.value) _
    | between negated => exact hvalue (bounds? c.value) _
    | isNull negated => exact congrArg some (Sql.negateIf_not _ _)
    | isTrue wanted =>
      refine congrArg some ?_
      rw [Bool.bne_not]
      exact Sql.Cells.compares_flag (h wanted hop) (wanted != c.negated)
    | unrecognized text => rfl

/-- The complement of a test says what the negation of a condition says. -/
theorem Filter.Condition.truth?_testing [LinearOrder Cell] (hw : w.Ordered) {op other : Operator}
    (hop : c.operator = some op) (h : op.complement? = some other) :
    (c.testing other).truth? w row = c.toggled.truth? w row := by
  unfold Condition.truth? Condition.testing Condition.toggled
  rw [hop]
  cases op with
  | compare op =>
    cases h
    refine congrArg ((scalar? c.value).map ·) (funext fun v => ?_)
    rw [hw.compares_complement]
    exact Sql.negateIf_comm c.negated false _
  | like p =>
    cases p with
    | within =>
      cases h
      refine congrArg ((patternText? c.value).map ·) (funext fun s => ?_)
      exact Sql.negateIf_comm c.negated false _
    | nowhere =>
      cases h
      refine congrArg ((patternText? c.value).map ·) (funext fun s => ?_)
      exact Sql.negateIf_comm c.negated true _
    | start => cases h
    | finish => cases h
  | between negated =>
    cases h
    refine congrArg ((bounds? c.value).map ·) (funext fun bounds => ?_)
    exact Sql.negateIf_comm c.negated negated _
  | isNull negated =>
    cases h
    exact congrArg some (Sql.negateIf_comm c.negated negated _)
  | isTrue wanted =>
    cases h
    dsimp only
    rw [Bool.not_bne, Bool.bne_not]
  | unrecognized text => cases h

end Meaning

/-! ### Conditions that compile -/

namespace Compile

section Compiling
variable {c : Condition}

theorem error_iff_of_outcome {ε α β : Type} {x : Except ε α} {y : Except ε β} (h : outcome x = outcome y)
    (e : ε) : x = .error e ↔ y = .error e := by
  rw [← map_eq_error_iff (k := fun _ => ()), ← map_eq_error_iff (x := y) (k := fun _ => ())]
  show outcome x = _ ↔ outcome y = _
  rw [h]

theorem mapError_eq_error_iff {ε ε' α : Type} {x : Except ε α} {f : ε → ε'} {e' : ε'} :
    x.mapError f = .error e' ↔ ∃ e, x = .error e ∧ f e = e' := by
  cases x with
  | error e => simp [Except.mapError]
  | ok a => simp [Except.mapError]

theorem toggled_ok_iff (c : Condition) : (∃ e, condition c.toggled = .ok e) ↔ ∃ e, condition c = .ok e := by
  rw [← outcome_ok_iff, Condition.toggled, outcome_negated, outcome_ok_iff]

/-- A complement needs a value of the same form. -/
theorem shape_complement {op other : Operator} (h : op.complement? = some other) : other.shape? = op.shape? := by
  cases op with
  | like p => cases p <;> cases h <;> rfl
  | compare _ | between _ | isNull _ | isTrue _ =>
    cases h
    rfl
  | unrecognized text => cases h

theorem testing_ok_iff {op other : Operator} (hop : c.operator = some op) (h : op.complement? = some other) :
    (∃ e, condition (c.testing other) = .ok e) ↔ ∃ e, condition c = .ok e := by
  rw [condition_ok_iff, condition_ok_iff]
  have hshape := shape_complement h
  constructor
  · rintro ⟨hfield, op', shape, hop', hs, hfits⟩
    obtain rfl : other = op' := Option.some.inj hop'
    exact ⟨hfield, op, shape, hop, hshape ▸ hs, hfits⟩
  · rintro ⟨hfield, op', shape, hop', hs, hfits⟩
    obtain rfl : op = op' := Option.some.inj (hop.symm.trans hop')
    exact ⟨hfield, other, shape, rfl, hshape.trans hs, hfits⟩

/-- A complement rounds the numbers that its test does. -/
theorem rounded_testing {op other : Operator} (hop : c.operator = some op) (h : op.complement? = some other) :
    (c.testing other).rounded = c.rounded.testing other := by
  have hvalue : Filter.roundedFor (some other) c.value = Filter.roundedFor c.operator c.value := by
    rw [hop]
    cases op with
    | like p =>
      cases p <;> cases h <;> rfl
    | compare _ | between _ | isNull _ | isTrue _ =>
      cases h
      rfl
    | unrecognized text => cases h
  unfold Condition.rounded Condition.testing
  rw [hvalue]

section Truths
variable {Cell : Type} {w : Cells Cell} {row : Row Cell} {a b : Condition} {e e' : Sql.Expr}
  (ha : condition a = .ok e) (hb : condition b = .ok e')
include ha hb

/-- Conditions that say the same compile to the same. -/
theorem truth_congr (h : a.rounded.truth? w row = b.rounded.truth? w row) : e.truth w row = e'.truth w row := by
  rw [truth_condition ha, truth_condition hb] at h
  exact Option.some.inj h

theorem truth_not (h : a.rounded.truth? w row = (b.rounded.truth? w row).map Truth.not) :
    e.truth w row = (e'.truth w row).not := by
  rw [truth_condition ha, truth_condition hb] at h
  exact Option.some.inj h

end Truths

end Compiling

/-- A condition and its negation compile or fail together, and for the same reason; where they compile, one
is the NOT of the other, on a column for truth values where such are asked for. Taking the complement of its
operator comes to the same as negating a condition, and doing both leaves it what it was. -/
theorem negation_complements (c : Condition) :
    (∀ path warning,
      (condition {c with negated := true}).mapError (Warning.dropped path) = .error warning ↔
        (condition {c with negated := false}).mapError (Warning.dropped path) = .error warning) ∧
    (∀ {Cell : Type} (w : Cells Cell) (row : Row Cell),
      (∀ wanted, c.operator = some (.isTrue wanted) → w.IsFlag (row (Text.trim c.field))) →
      ∀ e e', condition {c with negated := true} = .ok e → condition {c with negated := false} = .ok e' →
        e.truth w row = (e'.truth w row).not) ∧
    ∀ op other, c.operator = some op → op.complement? = some other →
      ((∃ e, condition (c.testing other) = .ok e) ↔ ∃ e, condition c.toggled = .ok e) ∧
      ((∃ e, condition (c.testing other).toggled = .ok e) ↔ ∃ e, condition c = .ok e) ∧
      ∀ {Cell : Type} [LinearOrder Cell] (w : Cells Cell) (row : Row Cell), w.Ordered →
        (∀ e e', condition (c.testing other) = .ok e → condition c.toggled = .ok e' →
          e.truth w row = e'.truth w row) ∧
        ∀ e e', condition (c.testing other).toggled = .ok e → condition c = .ok e' →
          e.truth w row = e'.truth w row := by
  refine ⟨fun path warning => ?_, fun w row hflag e e' he he' => ?_, fun op other hop h => ⟨?_, ?_, ?_⟩⟩
  · have hsame := (outcome_negated c true).trans (outcome_negated c false).symm
    rw [mapError_eq_error_iff, mapError_eq_error_iff]
    exact exists_congr fun why => and_congr_left fun _ => error_iff_of_outcome hsame why
  · let plain : Condition := {c with negated := false}
    have htoggled : plain.rounded.toggled.truth? w row = (plain.rounded.truth? w row).map Truth.not :=
      Condition.truth?_toggled hflag
    exact truth_not he he' htoggled
  · exact (testing_ok_iff hop h).trans (toggled_ok_iff c).symm
  · exact (toggled_ok_iff _).trans (testing_ok_iff hop h)
  · intro Cell _ w row hw
    have honce : (c.testing other).rounded.truth? w row = c.toggled.rounded.truth? w row := by
      rw [rounded_testing hop h]
      exact Condition.truth?_testing hw hop h
    refine ⟨fun e e' he he' => truth_congr he he' honce, fun e e' he he' => ?_⟩
    -- The complement of the negation says what the negation of the negation does.
    have htwice : (c.toggled.rounded.testing other).truth? w row = c.toggled.toggled.rounded.truth? w row :=
      Condition.truth?_testing hw hop h
    have hback : c.toggled.toggled = c := by
      rw [Condition.toggled, Condition.toggled, Bool.not_not]
    rw [hback] at htwice
    exact truth_congr he he' (rounded_testing (c := c.toggled) hop h ▸ htwice)

/-- Agents whose names come early in the alphabet. -/
def earlyAgents : Condition := ⟨" agent", some (.compare .lt), .string "m", .and, false⟩

/-- The negated test, and the complement, of a name that comes late. -/
theorem late_agents_complement :
    Cells.sorted.Ordered ∧
      condition (earlyAgents.testing (.compare .ge)) = .ok (.compare "agent" .ge (.text "m")) ∧
      condition earlyAgents.toggled = .ok (.not (.compare "agent" .lt (.text "m"))) ∧
      (Sql.Expr.compare "agent" .ge (.text "m")).truth Cells.sorted (fun _ => some (Cells.sorted.text "zoe")) =
        (Sql.Expr.not (.compare "agent" .lt (.text "m"))).truth Cells.sorted
          (fun _ => some (Cells.sorted.text "zoe")) := by
  have hordered : Cells.sorted.Ordered := fun _ _ _ => rfl
  have hswapped : condition (earlyAgents.testing (.compare .ge)) = .ok (.compare "agent" .ge (.text "m")) := by
    rfl
  have htoggled : condition earlyAgents.toggled = .ok (.not (.compare "agent" .lt (.text "m"))) := by rfl
  have hsame := (negation_complements earlyAgents).2.2 _ _ rfl rfl
  exact ⟨hordered, hswapped, htoggled, (hsame.2.2 _ _ hordered).1 _ _ hswapped htoggled⟩

end Compile

end BucketQuery
