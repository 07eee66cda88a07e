import BucketQuery.Filter.Operator

/-!
The filter tree of the editor: conditions on single columns, and groups of nodes to any depth. A
condition may be half filled; `Condition.complete` tells whether it can mean anything. -/
namespace BucketQuery.Filter

structure Condition where
  field : String
  operator : Option Operator
  /-- A scalar, a pair of bounds, or null. -/
  value : Json
  joins : Connective
  negated : Bool
deriving DecidableEq, Repr

namespace Condition

def new (field operator : String) (value : Json) : Condition :=
  ⟨field, some (Operator.ofText operator), value, .and, false⟩

/-- Joined to the node before it by OR. -/
def or (c : Condition) : Condition := {c with joins := .or}

def not (c : Condition) : Condition := {c with negated := true}

/-- Names a field and has an operator that is recognized. -/
def complete (c : Condition) : Bool :=
  !Text.allBlank c.field && c.operator.any Operator.recognized

end Condition

inductive Node where
  | condition (c : Condition)
  | group (joins : Connective) (children : List Node)
deriving Repr

namespace Node

mutual

def decEq : (a b : Node) → Decidable (a = b)
  | .condition a, .condition b => if h : a = b then isTrue (h ▸ rfl) else isFalse (by simp [h])
  | .group j as, .group k bs => match decEqList as bs with
    | isTrue h => if hj : j = k then isTrue (h ▸ hj ▸ rfl) else isFalse (by simp [hj])
    | isFalse h => isFalse (by simp [h])
  | .condition _, .group .. | .group .., .condition _ => isFalse (by simp)

def decEqList : (a b : List Node) → Decidable (a = b)
  | [], [] => isTrue rfl
  | a :: as, b :: bs => match decEq a b, decEqList as bs with
    | isTrue h, isTrue hs => isTrue (h ▸ hs ▸ rfl)
    | isFalse h, _ => isFalse (by simp [h])
    | _, isFalse hs => isFalse (by simp [hs])
  | [], _ :: _ | _ :: _, [] => isFalse (by simp)

end

instance : DecidableEq Node := decEq

end Node

/-- A group on its own. -/
structure Group where
  joins : Connective
  children : List Node
deriving DecidableEq, Repr

def Group.ofConditions (joins : Connective) (conditions : List Condition) : Group :=
  ⟨joins, conditions.map .condition⟩

def Group.node (g : Group) : Node := .group g.joins g.children

structure Tree where
  children : List Node
deriving DecidableEq, Repr

namespace Tree

/-- In the editor's order: conditions first, then groups. -/
def ofParts (conditions : List Condition) (groups : List Group) : Tree :=
  ⟨conditions.map .condition ++ groups.map Group.node⟩

def isEmpty (t : Tree) : Bool := t.children.isEmpty

end Tree

end BucketQuery.Filter
