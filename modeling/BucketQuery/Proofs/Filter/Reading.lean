import BucketQuery.Proofs.Filter.WellFormed
import BucketQuery.Proofs.Sql.Meaning

/-! What a filter tree means.

A tree is read here as the editor shows it, without regard to SQL text or to the values that stand in it: a
condition tests its column against the JSON it holds, siblings are an OR of runs of ANDs, and a group is one
sibling. How conditions are read is open to a tree. What has no meaning, such as a comparison with a list,
has no reading. -/
namespace BucketQuery.Filter

open Sql (Cells Operand Row Truth Value joined negateIf nullTest)

/-! ### What a condition holds -/

/-- What a scalar is compared as. Truth values count as 1 and 0, a whole number is itself however large, and a
number with a point or an exponent is the decimal it is shown as. -/
def scalar? : Json → Option Operand
  | .null => some .null
  | .bool b => some (.number (if b then 1 else 0))
  | .number (.int n) => some (.number n)
  | .number (.float x) => some (Value.float x).operand
  | .string s => some (.text s)
  | .array _ | .object _ => none

/-- The two bounds of a range. -/
def bounds? : Json → Option (Operand × Operand)
  | .array [low, high] => do
    let low ← scalar? low
    let high ← scalar? high
    return (low, high)
  | _ => none

theorem bounds?_pair {low high : Json} {a b : Operand} (ha : scalar? low = some a) (hb : scalar? high = some b) :
    bounds? (.array [low, high]) = some (a, b) := by
  rw [bounds?, ha, hb]
  rfl

/-- A scalar as the text of a pattern test. -/
def patternText? : Json → Option String
  | .string s => some s
  | .number n => some n.text
  | .bool b => some (toString b)
  | .null | .array _ | .object _ => none

namespace Placement

/-- Other text may stand in front. -/
def openFront : Placement → Bool
  | .start => false
  | .within | .nowhere | .finish => true

/-- Other text may follow. -/
def openBack : Placement → Bool
  | .finish => false
  | .within | .nowhere | .start => true

/-- The pattern for a text at a place. -/
def mask (p : Placement) (s : String) : String :=
  (if p.openFront then "%" else "") ++ s ++ if p.openBack then "%" else ""

end Placement

/-! ### Readings -/

section Condition
variable {Cell : Type} (w : Cells Cell) (row : Row Cell)

/-- What a condition says of a row. Negation is that of three truth values; where the column is tested
for 0 or 1, it asks for the other of the two. -/
def Condition.truth? (c : Condition) : Option Truth :=
  let cell := row (Text.trim c.field)
  match c.operator with
  | some (.compare op) =>
    (scalar? c.value).map fun v => negateIf c.negated (w.compares op cell (w.operand v))
  | some (.like p) =>
    (patternText? c.value).map fun s =>
      negateIf c.negated (negateIf (p == .nowhere) (w.likes cell (some (w.text (p.mask s)))))
  | some (.between negated) =>
    (bounds? c.value).map fun (low, high) =>
      negateIf c.negated (negateIf negated (w.between cell (w.operand low) (w.operand high)))
  | some (.isNull negated) => some (negateIf c.negated (negateIf negated (nullTest cell)))
  | some (.isTrue wanted) =>
    some (w.compares .eq cell (some (w.number (if wanted != c.negated then 1 else 0))))
  | some (.unrecognized _) | none => none

namespace Condition
variable {w row} {c : Condition}

theorem truth?_compare {op : Comparison} {v : Operand} (hop : c.operator = some (.compare op))
    (hv : scalar? c.value = some v) :
    c.truth? w row = some (negateIf c.negated (w.compares op (row (Text.trim c.field)) (w.operand v))) := by
  simp only [truth?, hop, hv, Option.map_some]

theorem truth?_like {p : Placement} {s : String} (hop : c.operator = some (.like p))
    (hs : patternText? c.value = some s) :
    c.truth? w row = some (negateIf c.negated (negateIf (p == .nowhere)
      (w.likes (row (Text.trim c.field)) (some (w.text (p.mask s)))))) := by
  simp only [truth?, hop, hs, Option.map_some]

theorem truth?_between {negated : Bool} {low high : Operand} (hop : c.operator = some (.between negated))
    (hb : bounds? c.value = some (low, high)) :
    c.truth? w row = some (negateIf c.negated (negateIf negated
      (w.between (row (Text.trim c.field)) (w.operand low) (w.operand high)))) := by
  simp only [truth?, hop, hb, Option.map_some]

end Condition

end Condition

def Node.joins : Node → Connective
  | .condition c => c.joins
  | .group joins _ => joins

section Tree
variable (read : Condition → Option Truth)

mutual

def Node.truth? : Node → Option Truth
  | .condition c => read c
  | .group _ children => (Node.truths? children).map joined

/-- What each of some siblings says, with its connective. -/
def Node.truths? : List Node → Option (List (Connective × Truth))
  | [] => some []
  | n :: rest => do
    let t ← n.truth?
    let ts ← Node.truths? rest
    return (n.joins, t) :: ts

end

/-- A tree without nodes restricts nothing. -/
def Tree.truth? (t : Tree) : Option Truth :=
  if t.isEmpty then some .true else (Node.truths? read t.children).map joined

end Tree

/-! ### Conditions read alike -/

section Congr
variable {read read' : Condition → Option Truth}

mutual

theorem Node.truth?_congr : (n : Node) → n.Every (fun c => read c = read' c) →
    n.truth? read = n.truth? read'
  | .condition _, h => h
  | .group _ children, h => congrArg (Option.map joined) (Node.truths?_congr children h)

/-- Siblings mean the same if each condition among and below them does. -/
theorem Node.truths?_congr : (ns : List Node) → Node.EveryIn (fun c => read c = read' c) ns →
    Node.truths? read ns = Node.truths? read' ns
  | [], _ => rfl
  | n :: rest, h => by
    rw [Node.truths?, Node.truths?, Node.truth?_congr n h.1, Node.truths?_congr rest h.2]

end

theorem Tree.truth?_congr {t : Tree} (h : t.Every fun c => read c = read' c) :
    t.truth? read = t.truth? read' := by
  unfold Tree.truth?
  rw [Node.truths?_congr t.children h]

end Congr

section Defined
variable {read : Condition → Option Truth}

mutual

theorem Node.truth?_isSome : (n : Node) → n.Every (fun c => (read c).isSome = true) →
    (n.truth? read).isSome = true
  | .condition _, h => h
  | .group _ children, h => by
    rw [Node.truth?, Option.isSome_map]
    exact Node.truths?_isSome children h

/-- Siblings have a meaning if each condition among and below them has one. -/
theorem Node.truths?_isSome : (ns : List Node) → Node.EveryIn (fun c => (read c).isSome = true) ns →
    (Node.truths? read ns).isSome = true
  | [], _ => rfl
  | n :: rest, h => by
    obtain ⟨t, ht⟩ := Option.isSome_iff_exists.mp (Node.truth?_isSome n h.1)
    obtain ⟨ts, hts⟩ := Option.isSome_iff_exists.mp (Node.truths?_isSome rest h.2)
    rw [Node.truths?, ht, hts]
    rfl

end

theorem Tree.truth?_isSome {t : Tree} (h : t.Every fun c => (read c).isSome = true) :
    (t.truth? read).isSome = true := by
  unfold Tree.truth?
  split
  · rfl
  · rw [Option.isSome_map]
    exact Node.truths?_isSome t.children h

end Defined

end BucketQuery.Filter
