import BucketQuery.Compile.Condition

/-!
Filter trees as SQL. Nodes are taken in order; what does not compile is dropped with a warning that
names its place. A group becomes a nested unit, unless nothing of it is left or it lies too deep. -/
namespace BucketQuery.Compile

open BucketQuery.Filter (Connective Node Tree)
open Sql (Expr)

/-- Items that were emitted, each with its connective, and warnings, both in order. -/
structure Emitted where
  items : List (Connective × Expr) := []
  warnings : List Warning := []

namespace Emitted

def cons (item : Connective × Expr) (e : Emitted) : Emitted := {e with items := item :: e.items}

def warn (w : Warning) (e : Emitted) : Emitted := {e with warnings := w :: e.warnings}

/-- The items as one expression; a single item stands for itself. -/
def expr? (e : Emitted) : Option Expr :=
  match e.items with
  | [] => none
  | [(_, item)] => some item
  | items => some (.chain items)

end Emitted

/-- What siblings emit. `around` lists the groups around them, and `conditions` and `groups` count
the siblings before them. -/
def nodes (deepest : Nat) (around : List Nat) : (conditions groups : Nat) → List Node → Emitted
  | _, _, [] => {}
  | i, j, .condition c :: rest =>
    let later := nodes deepest around (i + 1) j rest
    match condition c with
    | .ok e => later.cons (c.joins, e)
    | .error why => later.warn (.dropped ⟨around, .condition i⟩ why)
  | i, j, .group joins children :: rest =>
    let later := nodes deepest around i (j + 1) rest
    let path : Path := ⟨around, .group j⟩
    if deepest ≤ around.length then later.warn (.dropped path (.tooDeep deepest))
    else
      let inner := nodes deepest (around ++ [j]) 0 0 children
      match inner.expr? with
      | some e => {
          items := (joins, .nested e) :: later.items
          warnings := inner.warnings ++ later.warnings}
      | none => {later with
          warnings := inner.warnings ++ .dropped path .emptyGroup :: later.warnings}

/-- The expression of a tree, if anything of it is left, and what was dropped. -/
def tree (deepest : Nat) (t : Tree) : Option Expr × List Warning :=
  let e := nodes deepest [] 0 0 t.children
  (e.expr?, e.warnings)

end BucketQuery.Compile
