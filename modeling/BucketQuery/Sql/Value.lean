import BucketQuery.Calendar.Written
import BucketQuery.Double.Written
import BucketQuery.Json.Value

/-!
Values on their way to the warehouse. -/
namespace BucketQuery.Sql

inductive Value where
  | null
  | bool (b : Bool)
  | int (n : Int)
  | float (x : Double)
  | text (s : String)
  | timestamp (t : Calendar.Instant)
deriving DecidableEq, Repr

namespace Value

/-- The largest whole number a warehouse column holds. -/
def largestInt : Int := 0x7fffffffffffffff

/-- The value of a JSON scalar; a whole number too large to stay one becomes a binary64 number. -/
def ofJson? : Json → Option Value
  | .null => some .null
  | .bool b => some (.bool b)
  | .number (.int n) => some (if n ≤ largestInt then .int n else .float (Double.ofNat n.toNat))
  | .number (.float x) => some (.float x)
  | .string s => some (.text s)
  | .array _ | .object _ => none

def isNull : Value → Bool
  | null => true
  | _ => false

/-- As a JSON value. Timestamps are exact to the nanosecond. -/
def toJson : Value → Json
  | null => .null
  | bool b => .bool b
  | int n => .int n
  | float x => if x.isFinite then .float x else .null
  | text s => .string s
  | timestamp t => .string t.exactText

def kind : Value → String
  | null => "null"
  | bool _ => "bool"
  | int _ => "int"
  | float _ => "float"
  | text _ => "text"
  | timestamp _ => "timestamp"

end Value

end BucketQuery.Sql
