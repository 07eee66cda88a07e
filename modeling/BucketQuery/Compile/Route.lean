import BucketQuery.Compile.Warning
import BucketQuery.Settings.Basic

/-!
Routing: each bucket size has a table of its own, and with it the column that carries dates, the form
dates have there, and the order of rows. The tables below a day also carry a key of year, month, day
and hour. -/
namespace BucketQuery.Compile

/-- The form of dates in a routed column. -/
inductive BoundFormat where
  /-- `YYYY-MM-DD HH:MM:SS` -/
  | timestamp
  /-- `YYYY-MM-DD HH:00:00` -/
  | hour
  /-- `YYYY-MM-DD` -/
  | date
  /-- `YYYY-MM` -/
  | month
  /-- The year as a number. -/
  | year
deriving DecidableEq, Repr

def BoundFormat.value (t : Calendar.Instant) : BoundFormat → Sql.Value
  | .timestamp => .timestamp t
  | .hour => .timestamp t.atHour
  | .date => .text t.date.text
  | .month => .text t.date.monthText
  | .year => .int t.date.year

/-- A part of the key of the tables below a day. -/
inductive KeyPart where
  | year
  | month
  | day
  | hour
deriving DecidableEq, Repr

def KeyPart.column : KeyPart → String
  | .year => "year"
  | .month => "month"
  | .day => "day"
  | .hour => "hour"

def KeyPart.value (t : Calendar.Instant) : KeyPart → Int
  | .year => t.date.year
  | .month => t.date.month
  | .day => t.date.day
  | .hour => t.hour

structure Route where
  granularity : Granularity
  table : String
  dateColumn : String
  boundFormat : BoundFormat
  orderBy : List String
  /-- Empty where the table has no such key. -/
  key : List KeyPart
deriving DecidableEq, Repr

/-- The key's columns with their values at an instant. -/
def Route.keyValues (r : Route) (t : Calendar.Instant) : List (String × Int) :=
  r.key.map fun part => (part.column, part.value t)

def hourKey : List KeyPart := [.year, .month, .day, .hour]

def route (g : Granularity) (tables : Tables) : Route :=
  let table := tables.tableFor g
  match g with
  | .min15 | .min30 =>
    ⟨g, table, "timeInterval", .timestamp, ["year", "month", "day", "hour", "timeInterval"], hourKey⟩
  | .hourly => ⟨g, table, "timeInterval", .hour, ["year", "month", "day", "hour"], hourKey⟩
  | .daily => ⟨g, table, "timeInterval", .date, ["timeInterval"], []⟩
  | .monthly => ⟨g, table, "yearMonth", .month, ["year", "month"], []⟩
  | .yearly => ⟨g, table, "year", .year, ["year"], []⟩

/-- The bucket size a request asks for, and whether its token was taken for daily because it is
unknown. No token, or a blank one, means daily. -/
def granularityOf (token : Option String) : Granularity × Option String :=
  let token := Text.trim (token.getD "")
  if token.isEmpty then (.daily, none)
  else match Granularity.ofText? token with
    | some g => (g, none)
    | none => (.daily, some token)

end BucketQuery.Compile
