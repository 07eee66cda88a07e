import BucketQuery.Compile.Condition
import BucketQuery.Proofs.Outcome
import BucketQuery.Section.Query

/-! Requests without their values.

`Query.blank` puts a fixed value of the same shape in the place of every value of a request, so two
requests that differ in values only have one blank. A shape is what the compiler tells apart in the
value of a condition: whether a value will do for an operator, and why it will not, depends on the
shape alone (`scalar_outcome`, `likeText_outcome`, `range_outcome`). -/
namespace BucketQuery

/-! ### Shapes of values -/

/-- What the compiler tells apart in the value of a condition. -/
inductive Shape where
  | null
  /-- A scalar other than null. -/
  | scalar
  /-- Two scalars other than null. -/
  | pair
  | other
deriving DecidableEq

namespace Json

/-- A scalar other than null. -/
def isScalar : Json → Bool
  | .bool _ | .number _ | .string _ => true
  | .null | .array _ | .object _ => false

def shape : Json → Shape
  | .null => .null
  | .bool _ | .number _ | .string _ => .scalar
  | .array [low, high] => if low.isScalar && high.isScalar then .pair else .other
  | .array _ | .object _ => .other

end Json

/-- A value of a shape. -/
def Shape.sample : Shape → Json
  | .null => .null
  | .scalar => .bool false
  | .pair => .array [.bool false, .bool false]
  | .other => .array []

@[simp] theorem Shape.shape_sample (s : Shape) : s.sample.shape = s := by
  cases s <;> rfl

namespace Filter

def Condition.blank (c : Condition) : Condition := {c with value := c.value.shape.sample}

mutual

def Node.blank : Node → Node
  | .condition c => .condition c.blank
  | .group joins children => .group joins (Node.blankAll children)

def Node.blankAll : List Node → List Node
  | [] => []
  | n :: rest => n.blank :: Node.blankAll rest

end

end Filter

namespace Section

def Advanced.blank : Advanced → Advanced
  | .text condition => .text condition
  | .tree t => .tree ⟨Filter.Node.blankAll t.children⟩

def Dimensions.blank (d : Dimensions) : Dimensions :=
  ⟨d.queues.map fun _ => "", d.channels.map fun _ => ""⟩

/-- The request with fixed values of the same shapes: its dates at one instant, its queues and
channels without names, and a sample of its shape for the value of each condition. -/
def Query.blank (q : Query) : Query :=
  {q with
    startDate := q.startDate.map fun _ => .midnight .epoch
    endDate := q.endDate.map fun _ => .midnight .epoch
    dimensions := q.dimensions.blank
    advanced := q.advanced.map Advanced.blank}

end Section

namespace Compile

open BucketQuery.Filter (Condition Operator)
open Sql (Value)

/-! ### What becomes of a value -/

section Outcomes
variable (c : Condition) (op : Operator)

/-- Which outcome a computation has; what it computes is forgotten. -/
def outcome {ε α : Type} (x : Except ε α) : Except ε Unit := x.map fun _ => ()

theorem bind_of_outcome {ε α β γ : Type} {x y : Except ε α} {f g : α → Except ε β} {k : β → γ}
    (h : outcome x = outcome y) (hfg : ∀ a b, (f a).map k = (g b).map k) :
    (x >>= f).map k = (y >>= g).map k :=
  bind_of_map h fun a b _ => hfg a b

theorem ofJson_of_isScalar {v : Json} (h : v.isScalar = true) :
    ∃ w, Value.ofJson? v = some w ∧ w.isNull = false := by
  cases v with
  | bool b => exact ⟨.bool b, rfl, rfl⟩
  | number n =>
    cases n with
    | int n =>
      rw [Value.ofJson?]
      split
      · exact ⟨.int n, rfl, rfl⟩
      · exact ⟨_, rfl, rfl⟩
    | float x => exact ⟨.float x, rfl, rfl⟩
  | string s => exact ⟨.text s, rfl, rfl⟩
  | _ => cases h

theorem isNull_of_not_isScalar {v : Json} {w : Value} (h : v.isScalar = false)
    (hw : Value.ofJson? v = some w) : w.isNull = true := by
  cases v with
  | null =>
    cases hw
    rfl
  | array items => cases hw
  | object fields => cases hw
  | _ => cases h

/-- The shape of an array. -/
theorem shape_array (items : List Json) :
    (∃ low high, items = [low, high] ∧ low.isScalar = true ∧ high.isScalar = true ∧
      (Json.array items).shape = .pair) ∨
    (Json.array items).shape = .other ∧
      ∀ low high, items = [low, high] → low.isScalar = false ∨ high.isScalar = false := by
  by_cases hpair : ∃ low high, items = [low, high]
  · obtain ⟨low, high, rfl⟩ := hpair
    rw [Json.shape]
    cases hl : low.isScalar with
    | false =>
      refine .inr ⟨rfl, ?_⟩
      rintro _ _ ⟨⟩
      exact .inl hl
    | true =>
      cases hh : high.isScalar with
      | false =>
        refine .inr ⟨rfl, ?_⟩
        rintro _ _ ⟨⟩
        exact .inr hh
      | true => exact .inl ⟨low, high, rfl, hl, hh, rfl⟩
  · refine .inr ⟨?_, fun low high h => absurd ⟨low, high, h⟩ hpair⟩
    rw [Json.shape]
    exact fun low high h => hpair ⟨low, high, h⟩

theorem scalar_outcome : outcome (scalar c op) = match c.value.shape with
    | .null => .error (.missingValue c.field op.text)
    | .scalar => .ok ()
    | .pair | .other => .error (.notScalar c.field op.text) := by
  have hscalar (h : c.value.isScalar = true) : outcome (scalar c op) = .ok () := by
    obtain ⟨w, hw, hnull⟩ := ofJson_of_isScalar h
    rw [scalar, hw]
    cases w with
    | null => cases hnull
    | _ => rfl
  cases hv : c.value with
  | null =>
    rw [scalar, hv]
    rfl
  | array items =>
    rw [scalar, hv]
    rcases shape_array items with ⟨_, _, _, _, _, h⟩ | ⟨h, _⟩
    · rw [h]
      rfl
    · rw [h]
      rfl
  | object fields =>
    rw [scalar, hv]
    rfl
  | _ => exact hscalar (by rw [hv]; rfl)

theorem likeText_outcome : outcome (likeText c op) = match c.value.shape with
    | .null => .error (.missingValue c.field op.text)
    | .scalar => .ok ()
    | .pair | .other => .error (.notScalar c.field op.text) := by
  unfold likeText
  cases c.value with
  | array items =>
    rcases shape_array items with ⟨_, _, _, _, _, h⟩ | ⟨h, _⟩
    · rw [h]
      rfl
    · rw [h]
      rfl
  | _ => rfl

theorem range_outcome : outcome (range c op) = match c.value.shape with
    | .pair => .ok ()
    | .null | .scalar | .other => .error (.malformedRange c.field op.text) := by
  cases hv : c.value with
  | array items =>
    rcases shape_array items with ⟨low, high, rfl, hl, hh, h⟩ | ⟨h, hbad⟩
    · obtain ⟨l, hlv, hlnull⟩ := ofJson_of_isScalar hl
      obtain ⟨u, huv, hunull⟩ := ofJson_of_isScalar hh
      simp only [range, hv, hlv, huv, hlnull, hunull, h]
      rfl
    · rw [h, range, hv]
      by_cases hpair : ∃ low high, items = [low, high]
      · obtain ⟨low, high, rfl⟩ := hpair
        cases hlv : Value.ofJson? low with
        | none => simp only [hlv]; rfl
        | some l =>
          cases huv : Value.ofJson? high with
          | none => simp only [hlv, huv]; rfl
          | some u =>
            have hnull : (l.isNull || u.isNull) = true := by
              rcases hbad low high rfl with hlow | hhigh
              · rw [isNull_of_not_isScalar hlow hlv, Bool.true_or]
              · rw [isNull_of_not_isScalar hhigh huv, Bool.or_true]
            simp only [hlv, huv, hnull]
            rfl
      · split
        · rename_i low high heq
          exact absurd ⟨low, high, Json.array.inj heq⟩ hpair
        · rfl
  | _ =>
    rw [range, hv]
    rfl

@[simp] theorem value_shape_blank : c.blank.value.shape = c.value.shape := Shape.shape_sample _

end Outcomes

end Compile

end BucketQuery
