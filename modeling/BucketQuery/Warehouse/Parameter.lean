import BucketQuery.Sql.Value

/-!
Values as the warehouse's parameters. A timestamp is handed over as text, so it compares with text
columns and timestamp columns alike. -/
namespace BucketQuery.Warehouse

inductive Parameter where
  | null
  | boolean (b : Bool)
  | bigint (n : Int)
  | double (x : Double)
  | text (s : String)
deriving DecidableEq, Repr

def Parameter.ofValue : Sql.Value → Parameter
  | .null => .null
  | .bool b => .boolean b
  | .int n => .bigint n
  | .float x => .double x
  | .text s => .text s
  | .timestamp t => .text t.text

end BucketQuery.Warehouse
