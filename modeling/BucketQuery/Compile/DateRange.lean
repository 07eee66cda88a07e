import BucketQuery.Compile.Route
import BucketQuery.Sql.Expr

/-!
Ranges of dates as SQL: a test of the routed column, and on tables with a key also one of the key,
which compares its columns one after the other as a number compares its digits. -/
namespace BucketQuery.Compile

open Sql (Expr)

/-- Which end of a range a bound is. -/
inductive Side where
  | lower
  | upper
deriving DecidableEq, Repr

def Side.strict : Side → Filter.Comparison
  | .lower => .gt
  | .upper => .lt

def Side.inclusive : Side → Filter.Comparison
  | .lower => .ge
  | .upper => .le

/-- The key lies on the inner side of the bound or is equal to it. -/
def keyBound (side : Side) : List (String × Int) → Expr
  | [] => .raw "1=1"
  | [(column, v)] => .compare column side.inclusive (.int v)
  | (column, v) :: rest =>
    let tie := .nested (.chain [(.and, .compare column .eq (.int v)), (.and, keyBound side rest)])
    .nested (.chain [(.and, .compare column side.strict (.int v)), (.or, tie)])

def columnFilter (r : Route) : (start finish : Option Calendar.Instant) → List Expr
  | some s, some e =>
    [.between r.dateColumn (r.boundFormat.value s) (r.boundFormat.value e) false]
  | some s, none => [.compare r.dateColumn .ge (r.boundFormat.value s)]
  | none, some e => [.compare r.dateColumn .le (r.boundFormat.value e)]
  | none, none => []

def keyFilter (r : Route) (side : Side) : Option Calendar.Instant → List Expr
  | some t => if r.key.isEmpty then [] else [keyBound side (r.keyValues t)]
  | none => []

def dateFilters (r : Route) (start finish : Option Calendar.Instant) : List Expr :=
  columnFilter r start finish ++ keyFilter r .lower start ++ keyFilter r .upper finish

end BucketQuery.Compile
