import BucketQuery.Compile.Warning
import BucketQuery.Filter.Tree
import BucketQuery.Sql.Expr
import BucketQuery.Sql.Identifier

/-!
Conditions as SQL. A condition compiles when its field is an identifier, its operator is recognized
and its value has the shape that the operator needs; otherwise the reason is given. Negation flips
what a test for null or truth looks for and wraps any other test. -/
namespace BucketQuery.Compile

open BucketQuery.Filter (Condition Operator Placement)
open Sql (Expr Value)

/-- The one value of a comparison. -/
def scalar (c : Condition) (op : Operator) : Except Drop Value :=
  match Value.ofJson? c.value with
  | some .null => .error (.missingValue c.field op.text)
  | some v => .ok v
  | none => .error (.notScalar c.field op.text)

/-- The text a pattern is made from. -/
def likeText (c : Condition) (op : Operator) : Except Drop String :=
  match c.value with
  | .string s => .ok s
  | .number n => .ok n.text
  | .bool b => .ok (toString b)
  | .null => .error (.missingValue c.field op.text)
  | .array _ | .object _ => .error (.notScalar c.field op.text)

/-- The two bounds of a range, neither of them null. -/
def range (c : Condition) (op : Operator) : Except Drop (Value × Value) :=
  match c.value with
  | .array [low, high] =>
    match Value.ofJson? low, Value.ofJson? high with
    | some l, some h =>
      if l.isNull || h.isNull then .error (.malformedRange c.field op.text) else .ok (l, h)
    | _, _ => .error (.malformedRange c.field op.text)
  | _ => .error (.malformedRange c.field op.text)

/-- The pattern of a text that has to occur at a place, `%` standing for anything. -/
def pattern (text : String) : Placement → String
  | .within | .nowhere => "%" ++ text ++ "%"
  | .start => text ++ "%"
  | .finish => "%" ++ text

def negate (negated : Bool) (e : Expr) : Expr := if negated then .not e else e

/-- The test of a condition on a column that has been checked. -/
def test (c : Condition) (column : String) (op : Operator) : Except Drop Expr :=
  match op with
  | .compare cmp => do
    let v ← scalar c op
    return negate c.negated (.compare column cmp v)
  | .like p => do
    let s ← likeText c op
    return negate c.negated (.like column (.text (pattern s p)) (p == .nowhere))
  | .between negated => do
    let (low, high) ← range c op
    return negate c.negated (.between column low high negated)
  | .isNull negated => .ok (.isNull column (negated != c.negated))
  | .isTrue wanted =>
    .ok (.compare column .eq (.int (if wanted != c.negated then 1 else 0)))
  | .unrecognized _ => .error .incomplete

def condition (c : Condition) : Except Drop Expr :=
  match c.operator with
  | none => .error .incomplete
  | some op =>
    if !c.complete then .error .incomplete
    else
      let column := Text.trim c.field
      if Sql.isIdentifier column then test c column op else .error (.invalidField c.field)

end BucketQuery.Compile
