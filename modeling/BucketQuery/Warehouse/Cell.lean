import BucketQuery.Calendar.Written
import BucketQuery.Json.Value

/-!
Cells of a warehouse table, and the JSON values they are shown as. Whole numbers of up to 64 bits stay
numbers; larger ones and decimals are shown as text. Dates and timestamps are shown as calendar text
as far as the calendar reaches, and beyond it as the bare number they are. -/
namespace BucketQuery.Warehouse

inductive TimeUnit where
  | second
  | millisecond
  | microsecond
  | nanosecond
deriving DecidableEq, Repr

def TimeUnit.name : TimeUnit → String
  | .second => "Second"
  | .millisecond => "Millisecond"
  | .microsecond => "Microsecond"
  | .nanosecond => "Nanosecond"

inductive Cell where
  | null
  | bool (b : Bool)
  | int (n : Int)
  | hugeInt (n : Int)
  | float (x : Double)
  /-- `coefficient * 10 ^ -scale` -/
  | decimal (coefficient : Int) (scale : Nat)
  | timestamp (unit : TimeUnit) (v : Int)
  | timeOfDay (unit : TimeUnit) (v : Int)
  | text (s : String)
  | blob (bytes : List UInt8)
  /-- Days since 1970-01-01. -/
  | date (days : Int)
  | interval (months days nanos : Int)
  | list (items : List Cell)
  | record (fields : List (String × Cell))
  | map (entries : List (Cell × Cell))
  | union (content : Cell)

/-- The nearest number of 64 bits. -/
def saturate (n : Int) : Int := max (-0x8000000000000000) (min 0x7fffffffffffffff n)

/-- Microseconds, cut off towards zero from below. -/
def microseconds (v : Int) : TimeUnit → Int
  | .second => saturate (v * 1000000)
  | .millisecond => saturate (v * 1000)
  | .microsecond => v
  | .nanosecond => v.tdiv 1000

def timestampJson (unit : TimeUnit) (v : Int) : Json :=
  match Calendar.Instant.ofUnix? (microseconds v unit / 1000000) with
  | some t => .string t.text
  | none => .int v

def dateJson (days : Int) : Json :=
  match Calendar.Date.ofDayNumber? days with
  | some d => .string d.text
  | none => .int days

def hexByte (b : UInt8) : List Char :=
  [Nat.digitChar (b.toNat / 16), Nat.digitChar (b.toNat % 16)]

def decimalText (coefficient : Int) (scale : Nat) : String :=
  let ds := Calendar.padded (scale + 1) coefficient.natAbs
  let (whole, part) := ds.splitAt (ds.length - scale)
  String.ofList ((if coefficient < 0 then ['-'] else []) ++ whole ++
    if part.isEmpty then [] else '.' :: part)

namespace Cell

mutual

def toJson : Cell → Json
  | .null => .null
  | .bool b => .bool b
  | .int n => .int n
  | .hugeInt n => .string (toString n)
  | .float x => if x.isFinite then .float x else .null
  | .decimal coefficient scale => .string (decimalText coefficient scale)
  | .timestamp unit v => timestampJson unit v
  | .timeOfDay unit v => .string (toString v ++ " (" ++ unit.name ++ ")")
  | .text s => .string s
  | .blob bytes => .string (String.ofList (bytes.flatMap hexByte))
  | .date days => dateJson days
  | .interval months days nanos => .string
    (toString months ++ " months " ++ toString days ++ " days " ++ toString nanos ++ " nanos")
  | .list items => .array (itemsJson items)
  | .record fields => Json.ofFields (fieldsJson fields)
  | .map entries => .array (entriesJson entries)
  | .union content => content.toJson

def itemsJson : List Cell → List Json
  | [] => []
  | c :: rest => c.toJson :: itemsJson rest

def fieldsJson : List (String × Cell) → List (String × Json)
  | [] => []
  | (n, c) :: rest => (n, c.toJson) :: fieldsJson rest

def entriesJson : List (Cell × Cell) → List Json
  | [] => []
  | (k, v) :: rest => .array [k.toJson, v.toJson] :: entriesJson rest

end

end Cell

end BucketQuery.Warehouse
