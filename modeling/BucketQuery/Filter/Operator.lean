import BucketQuery.Json.Written
import BucketQuery.Text.Blank

/-!
The operators of the filter editor. Each is known by its spelling, where letter case and blank space
around it do not matter; whatever else stands in an operator's place is kept as it was written, so
that a half-filled row of the editor is not lost. -/
namespace BucketQuery.Filter

/-- How a node joins the one before it. -/
inductive Connective where
  | and
  | or
deriving DecidableEq, Repr

namespace Connective

def text : Connective → String
  | .and => "AND"
  | .or => "OR"

/-- Anything but the word OR means AND. -/
def ofJson : Json → Connective
  | .string s => if Text.sameLetters (Text.trim s) "or" then .or else .and
  | _ => .and

end Connective

inductive Comparison where
  | eq
  | ne
  | gt
  | lt
  | ge
  | le
deriving DecidableEq, Repr

def Comparison.text : Comparison → String
  | .eq => "="
  | .ne => "!="
  | .gt => ">"
  | .lt => "<"
  | .ge => ">="
  | .le => "<="

/-- Where the text of a pattern test has to occur in a cell. -/
inductive Placement where
  | within
  | nowhere
  | start
  | finish
deriving DecidableEq, Repr

inductive Operator where
  | compare (c : Comparison)
  | like (p : Placement)
  | between (negated : Bool)
  | isNull (negated : Bool)
  /-- A test of a column that holds 0 or 1. -/
  | isTrue (wanted : Bool)
  | unrecognized (text : String)
deriving DecidableEq, Repr

/-- What an operator expects for its value. -/
inductive ValueShape where
  | scalar
  | range
  | none
deriving DecidableEq, Repr

namespace Operator

/-- All spellings; where an operator has several, its own comes first. -/
def spellings : List (String × Operator) := [
  ("=", .compare .eq), ("==", .compare .eq), ("!=", .compare .ne), ("<>", .compare .ne),
  (">", .compare .gt), ("<", .compare .lt), (">=", .compare .ge), ("<=", .compare .le),
  ("LIKE", .like .within), ("NOT LIKE", .like .nowhere), ("LIKE%", .like .start),
  ("%LIKE", .like .finish), ("BETWEEN", .between false), ("NOT BETWEEN", .between true),
  ("IS NULL", .isNull false), ("IS NOT NULL", .isNull true), ("=TRUE", .isTrue true),
  ("=FALSE", .isTrue false)]

def ofText (token : String) : Operator :=
  (spellings.lookup (Text.trim token).toUpper).getD (.unrecognized token)

def text : Operator → String
  | .compare c => c.text
  | .like .within => "LIKE"
  | .like .nowhere => "NOT LIKE"
  | .like .start => "LIKE%"
  | .like .finish => "%LIKE"
  | .between false => "BETWEEN"
  | .between true => "NOT BETWEEN"
  | .isNull false => "IS NULL"
  | .isNull true => "IS NOT NULL"
  | .isTrue true => "=true"
  | .isTrue false => "=false"
  | .unrecognized text => text

def shape? : Operator → Option ValueShape
  | .compare _ | .like _ => some .scalar
  | .between _ => some .range
  | .isNull _ | .isTrue _ => some .none
  | .unrecognized _ => none

def recognized (op : Operator) : Bool := op.shape?.isSome

/-- An operator that is not a string is unrecognized under its JSON text. -/
def ofJson : Json → Operator
  | .string token => ofText token
  | v => .unrecognized v.text

end Operator

end BucketQuery.Filter
