import BucketQuery.Proofs.Sql.Literal
import BucketQuery.Proofs.Sql.Truth
import BucketQuery.Sql.Expr

/-! What conditions mean on a row.

A row gives each column a cell, or null. How a warehouse compares cells and matches patterns is left
open, but for numbers, which it compares by their values. All else is fixed: a test of a null is
unknown, a range has both its ends, and a list is an OR of equalities. Predicates, which a text is
read as, and expressions, which a text is made from, have their meanings apart. -/
namespace BucketQuery.Sql

open BucketQuery.Filter (Comparison Connective)

def holds (x y : Rat) : Comparison → Bool
  | .eq => decide (x = y)
  | .ne => decide (x ≠ y)
  | .gt => decide (y < x)
  | .lt => decide (x < y)
  | .ge => decide (y ≤ x)
  | .le => decide (x ≤ y)

/-- The cells of a warehouse, and its tests of cells that are not null. -/
structure Cells (Cell : Type) where
  number : Rat → Cell
  text : String → Cell
  compare : Comparison → Cell → Cell → Bool
  /-- A text matches a pattern. -/
  like : Cell → Cell → Bool
  numbers : ∀ op x y, compare op (number x) (number y) = holds x y op

/-- The cells of a row by their columns. -/
abbrev Row (Cell : Type) := String → Option Cell

/-- A test that is unknown where one side is null. -/
def ofKnown {Cell : Type} (test : Cell → Cell → Bool) : Option Cell → Option Cell → Truth
  | some a, some b => .ofBool (test a b)
  | none, _ | some _, none => .unknown

def nullTest {Cell : Type} (a : Option Cell) : Truth := .ofBool a.isNone

def negateIf (negated : Bool) (t : Truth) : Truth := if negated then t.not else t

theorem negateIf_inj {negated : Bool} {s t : Truth} : negateIf negated s = negateIf negated t ↔ s = t := by
  cases negated with
  | false => rfl
  | true => exact ⟨fun h => by rw [← Truth.not_not s, ← Truth.not_not t]; exact congrArg Truth.not h, congrArg _⟩

namespace Cells
variable {Cell : Type} (w : Cells Cell)

def operand : Operand → Option Cell
  | .null => none
  | .number x => some (w.number x)
  | .text s => some (w.text s)

def value (v : Value) : Option Cell := w.operand v.operand

def compares (op : Comparison) : Option Cell → Option Cell → Truth := ofKnown (w.compare op)

def likes : Option Cell → Option Cell → Truth := ofKnown w.like

def between (a low high : Option Cell) : Truth := (w.compares .ge a low).and (w.compares .le a high)

def among (a : Option Cell) (bs : List (Option Cell)) : Truth := Truth.any (bs.map (w.compares .eq a))

end Cells

/-- Numbers by their values, texts by their characters; a number and a text are only unequal. A pattern
without signs of its own matches itself. -/
def Cells.plain : Cells (Rat ⊕ String) where
  number := .inl
  text := .inr
  compare
    | op, .inl x, .inl y => holds x y op
    | .eq, .inr s, .inr t => s == t
    | .ne, .inr s, .inr t => s != t
    | .gt, .inr s, .inr t => decide (t < s)
    | .lt, .inr s, .inr t => decide (s < t)
    | .ge, .inr s, .inr t => decide (t ≤ s)
    | .le, .inr s, .inr t => decide (s ≤ t)
    | op, .inl _, .inr _ | op, .inr _, .inl _ => op == .ne
  like a pattern := a == pattern
  numbers _ _ _ := rfl

/-! ### Predicates -/

inductive Term where
  | column (name : String)
  | constant (v : Operand)
deriving DecidableEq

inductive Predicate where
  | compare (op : Comparison) (a b : Term)
  | like (a pattern : Term)
  | between (a low high : Term)
  | isNull (a : Term)
  | among (a : Term) (bs : List Term)
  | not (p : Predicate)
  | and (p q : Predicate)
  | or (p q : Predicate)

section Meaning
variable {Cell : Type} (w : Cells Cell) (row : Row Cell)

def Term.cell : Term → Option Cell
  | .column name => row name
  | .constant v => w.operand v

def Predicate.truth : Predicate → Truth
  | .compare op a b => w.compares op (a.cell w row) (b.cell w row)
  | .like a pattern => w.likes (a.cell w row) (pattern.cell w row)
  | .between a low high => w.between (a.cell w row) (low.cell w row) (high.cell w row)
  | .isNull a => nullTest (a.cell w row)
  | .among a bs => w.among (a.cell w row) (bs.map (Term.cell w row))
  | .not p => p.truth.not
  | .and p q => p.truth.and q.truth
  | .or p q => p.truth.or q.truth

/-! ### Expressions -/

mutual

/-- What an expression means. Trusted text has no meaning here. -/
def Expr.truth : Expr → Truth
  | .raw _ => .unknown
  | .compare column op v => w.compares op (row column) (w.value v)
  | .like column pattern negated => negateIf negated (w.likes (row column) (w.value pattern))
  | .between column low high negated =>
    negateIf negated (w.between (row column) (w.value low) (w.value high))
  | .isNull column negated => negateIf negated (nullTest (row column))
  | .inList column values => w.among (row column) (values.map w.value)
  | .not e => e.truth.not
  | .nested e => e.truth
  | .chain items => joined (Expr.itemTruths items)

def Expr.itemTruths : List (Connective × Expr) → List (Connective × Truth)
  | [] => []
  | (c, e) :: rest => (c, e.truth) :: Expr.itemTruths rest

end

theorem Expr.itemTruths_eq (items : List (Connective × Expr)) :
    Expr.itemTruths w row items = items.map fun item => (item.1, item.2.truth w row) := by
  induction items with
  | nil => rfl
  | cons item rest ih => rw [Expr.itemTruths, ih, List.map_cons]

theorem Expr.truth_chain (items : List (Connective × Expr)) :
    (Expr.chain items).truth w row =
      Truth.any ((runs items).map fun run => Truth.all (run.map (Expr.truth w row))) := by
  show joined (Expr.itemTruths w row items) = _
  rw [Expr.itemTruths_eq, joined, runs_map, List.map_map]
  rfl

end Meaning

end BucketQuery.Sql
