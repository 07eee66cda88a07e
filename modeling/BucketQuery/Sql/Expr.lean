import BucketQuery.Filter.Operator
import BucketQuery.Sql.Dialect

/-!
Conditions and statements of SQL, and how they are written. A renderer goes through a statement once and
adds to what is there already; a placeholder is numbered by the parameters in front of it. -/
namespace BucketQuery.Sql

open BucketQuery.Filter (Connective Comparison)

/-- Column names are taken as they are; whoever builds a condition has checked them. -/
inductive Expr where
  /-- Text that is trusted. -/
  | raw (text : String)
  | compare (column : String) (op : Comparison) (value : Value)
  | like (column : String) (pattern : Value) (negated : Bool)
  | between (column : String) (low high : Value) (negated : Bool)
  | isNull (column : String) (negated : Bool)
  | inList (column : String) (values : List Value)
  | not (e : Expr)
  | nested (e : Expr)
  /-- Items in a row; the connective of the first is not written. -/
  | chain (items : List (Connective × Expr))
deriving Repr

structure Select where
  columns : List String
  table : String
  filters : List Expr
  groupBy : Option String
  orderBy : List String
deriving Repr

/-! ### Renderings -/

/-- How values reach the text. -/
inductive LiteralMode where
  /-- As parameters, with a placeholder in the text. -/
  | bound
  | inline
deriving DecidableEq, Repr

namespace LiteralMode

def text : LiteralMode → String
  | bound => "bound"
  | inline => "inline"

end LiteralMode

/-- A text and the values of its placeholders, in order. -/
structure Rendered where
  sql : String
  params : List Value
deriving DecidableEq, Repr

namespace Rendered

def empty : Rendered := ⟨"", []⟩

/-- Fixed text at the end. -/
def push (out : Rendered) (s : String) : Rendered := {out with sql := out.sql ++ s}

end Rendered

structure Renderer where
  dialect : Dialect
  mode : LiteralMode

namespace Renderer
variable (r : Renderer)

def writeValue (v : Value) (out : Rendered) : Rendered :=
  match r.mode with
  | .inline => out.push (r.dialect.literal v)
  | .bound =>
    ⟨out.sql ++ r.dialect.placeholder out.params.length, out.params ++ [v]⟩

mutual

def writeExpr : Expr → Rendered → Rendered
  | .raw text, out => out.push text
  | .compare column op value, out => r.writeValue value (out.push (column ++ " " ++ op.text ++ " "))
  | .like column pattern negated, out =>
    r.writeValue pattern (out.push (column ++ if negated then " NOT LIKE " else " LIKE "))
  | .between column low high negated, out =>
    let out := r.writeValue low (out.push (column ++ if negated then " NOT BETWEEN " else " BETWEEN "))
    r.writeValue high (out.push " AND ")
  | .isNull column negated, out => out.push (column ++ if negated then " IS NOT NULL" else " IS NULL")
  -- Nothing is in an empty list.
  | .inList _ [], out => out.push "1=0"
  | .inList column (v :: rest), out =>
    let out := r.writeValue v (out.push (column ++ " IN ("))
    (rest.foldl (fun out v => r.writeValue v (out.push ", ")) out).push ")"
  | .not e, out => (writeExpr e (out.push "NOT (")).push ")"
  | .nested e, out => (writeExpr e (out.push "(")).push ")"
  | .chain [], out => out
  | .chain ((_, e) :: rest), out => writeRest rest (writeExpr e out)

/-- Items behind the first, each with its connective. -/
def writeRest : List (Connective × Expr) → Rendered → Rendered
  | [], out => out
  | (c, e) :: rest, out => writeRest rest (writeExpr e (out.push (" " ++ c.text ++ " ")))

end

end Renderer

namespace Select

def projection (s : Select) : String :=
  if s.columns.isEmpty then "*" else ", ".intercalate s.columns

end Select

def Renderer.writeSelect (r : Renderer) (s : Select) : Rendered :=
  let out := Rendered.empty.push ("SELECT " ++ s.projection ++ " FROM " ++ s.table ++ " WHERE 1=1")
  let out := s.filters.foldl (fun out e => r.writeExpr e (out.push " AND ")) out
  let out := match s.groupBy with
    | some key => out.push (" GROUP BY " ++ key)
    | none => out
  if s.orderBy.isEmpty then out else out.push (" ORDER BY " ++ ", ".intercalate s.orderBy)

def Expr.render (e : Expr) (d : Dialect) (mode : LiteralMode) : Rendered :=
  Renderer.writeExpr ⟨d, mode⟩ e .empty

def Select.render (s : Select) (d : Dialect) (mode : LiteralMode) : Rendered :=
  Renderer.writeSelect ⟨d, mode⟩ s

end BucketQuery.Sql
