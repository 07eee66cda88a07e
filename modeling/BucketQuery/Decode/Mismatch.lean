import BucketQuery.Json.Document
import BucketQuery.Json.Written
import BucketQuery.Text.Quoted

/-!
Why a document is not what was wanted of it. A `Mismatch` names what was found and what was
expected; its message is one line. -/
namespace BucketQuery.Decode

/-- What a document turned out to be. -/
inductive Found where
  | null
  | bool (b : Bool)
  | number (n : Json.Number)
  | string (s : String)
  | sequence
  | mapping
  /-- The bare name of a variant. -/
  | variantName
deriving DecidableEq

def Found.text : Found → String
  | .null => "null"
  | .bool b => "boolean `" ++ toString b ++ "`"
  | .number (.int n) => "integer `" ++ toString n ++ "`"
  | .number (.float x) => "floating point `" ++ x.jsonText?.getD "null" ++ "`"
  | .string s => "string " ++ Text.quoted s
  | .sequence => "sequence"
  | .mapping => "map"
  | .variantName => "unit variant"

inductive Mismatch where
  | wrongType (found : Found) (expected : String)
  | wrongValue (found : Found) (expected : String)
  | wrongLength (length : Nat) (expected : String)
  | missingField (name : String)
  | duplicateField (name : String)
  | unknownField (name : String) (known : List String)
  | unknownVariant (name : String) (known : List String)
  /-- The text is not a calendar value. -/
  | notCalendar (text : String)
  /-- A list of filter nodes in both of its shapes at once. -/
  | bothShapes
  /-- The filter tree of a query is at fault. -/
  | inFilterTree (cause : Mismatch)
  | notFilter (value : Json)

def named (name : String) : String := "`" ++ name ++ "`"

/-- The names one may choose from, as a message lists them. -/
def choice : List String → String
  | [] => "there are none"
  | [a] => "expected " ++ named a
  | [a, b] => "expected " ++ named a ++ " or " ++ named b
  | names => "expected one of " ++ ", ".intercalate (names.map named)

def Mismatch.message : Mismatch → String
  | .wrongType found expected => "invalid type: " ++ found.text ++ ", expected " ++ expected
  | .wrongValue found expected => "invalid value: " ++ found.text ++ ", expected " ++ expected
  | .wrongLength length expected => "invalid length " ++ toString length ++ ", expected " ++ expected
  | .missingField name => "missing field " ++ named name
  | .duplicateField name => "duplicate field " ++ named name
  | .unknownField name known => "unknown field " ++ named name ++ ", " ++ choice known
  | .unknownVariant name known => "unknown variant " ++ named name ++ ", " ++ choice known
  | .notCalendar text => "invalid calendar value " ++ Text.quoted text
  | .bothShapes => "filter lists use either 'children' or 'conditions'/'groups', not both"
  | .inFilterTree cause => "invalid advanced filter tree: " ++ cause.message
  | .notFilter value => "advanced filter must be WHERE text or a filter tree, got " ++ value.text

/-- A document cannot be decoded: its text is faulty at a place that was needed, or what it says does
not fit. -/
inductive Failure where
  | fault (f : Fault)
  | mismatch (m : Mismatch)

end BucketQuery.Decode

namespace BucketQuery

abbrev Decoded (α : Type) := Except Decode.Failure α

end BucketQuery
