import BucketQuery.Json.Value
import BucketQuery.Text.Quoted

/-!
What a compile gave up on. A part of a request that cannot be expressed is left out and reported, with
its place in the filter tree where it comes from there; whatever is dropped from the tree widens the
filter. -/
namespace BucketQuery.Compile

/-- A node among its siblings; conditions and groups are counted apart, from zero. -/
inductive Slot where
  | condition (i : Nat)
  | group (i : Nat)
deriving DecidableEq, Repr

/-- A place in the tree: the groups around it from the outside in, and its own slot. -/
structure Path where
  groups : List Nat
  slot : Slot
deriving DecidableEq, Repr

namespace Path

def groupText (i : Nat) : String := "groups[" ++ toString i ++ "]"

def slotText : Slot → String
  | .condition i => "conditions[" ++ toString i ++ "]"
  | .group i => groupText i

def text (p : Path) : String :=
  ".".intercalate (p.groups.map groupText ++ [slotText p.slot])

end Path

/-- Why a node was dropped. -/
inductive Drop where
  | invalidField (field : String)
  /-- No field, or no operator that is recognized. -/
  | incomplete
  | malformedRange (field operator : String)
  | missingValue (field operator : String)
  | notScalar (field operator : String)
  | emptyGroup
  | tooDeep (deepest : Nat)
deriving DecidableEq, Repr

/-- What a rejected name was meant for. -/
inductive Role where
  | column
  | groupBy
deriving DecidableEq, Repr

def Role.text : Role → String
  | .column => "column"
  | .groupBy => "group by"

inductive Warning where
  | dropped (path : Path) (why : Drop)
  | unknownGranularity (token : String)
  | invalidIdentifier (role : Role) (name : String)
  | invertedDates (start finish : String)
deriving DecidableEq, Repr

def Drop.message : Drop → String
  | .invalidField field =>
    "field " ++ Text.quoted field ++ " is not a valid identifier, condition dropped"
  | .incomplete => "condition needs a field and a recognized operator, skipped"
  | .malformedRange field operator =>
    operator ++ " on " ++ field ++ " needs a [low, high] pair, condition dropped"
  | .missingValue field operator => operator ++ " on " ++ field ++ " needs a value, condition dropped"
  | .notScalar field operator =>
    operator ++ " on " ++ field ++ " got a non-scalar value, condition dropped"
  | .emptyGroup => "group produced no conditions, dropped"
  | .tooDeep deepest => "group nested deeper than " ++ toString deepest ++ ", dropped"

def Drop.kind : Drop → String
  | .invalidField _ => "invalid_field"
  | .incomplete => "incomplete_condition"
  | .malformedRange .. => "malformed_between"
  | .missingValue .. => "missing_value"
  | .notScalar .. => "unsupported_value"
  | .emptyGroup => "empty_group"
  | .tooDeep _ => "depth_exceeded"

def Drop.details : Drop → List (String × Json)
  | .invalidField field => [("field", .string field)]
  | .malformedRange field operator | .missingValue field operator | .notScalar field operator =>
    [("field", .string field), ("operator", .string operator)]
  | .tooDeep deepest => [("max_depth", .int deepest)]
  | .incomplete | .emptyGroup => []

namespace Warning

def message : Warning → String
  | dropped path why => path.text ++ ": " ++ why.message
  | unknownGranularity token => "unknown time interval " ++ Text.quoted token ++ ", using daily"
  | invalidIdentifier role name =>
    role.text ++ " " ++ Text.quoted name ++ " is not a valid identifier, ignored"
  | invertedDates start finish => "start date " ++ start ++ " is after end date " ++ finish

/-- Rows may match that the section did not ask for. -/
def widensFilter : Warning → Bool
  | dropped .. => true
  | _ => false

def toJson : Warning → Json
  | dropped path why =>
    Json.ofFields (("kind", .string why.kind) :: ("path", .string path.text) :: why.details)
  | unknownGranularity token =>
    Json.ofFields [("kind", .string "unknown_granularity"), ("token", .string token)]
  | invalidIdentifier role name => Json.ofFields
    [("kind", .string "invalid_identifier"), ("context", .string role.text), ("name", .string name)]
  | invertedDates start finish => Json.ofFields
    [("kind", .string "inverted_date_range"), ("start", .string start), ("end", .string finish)]

end Warning

end BucketQuery.Compile
