import BucketQuery.Decode.Scalar
import BucketQuery.Text.Blank

/-!
The sizes of the buckets that statistics are gathered in. -/
namespace BucketQuery

inductive Granularity where
  | min15
  | min30
  | hourly
  | daily
  | monthly
  | yearly
deriving DecidableEq, Repr

namespace Granularity

/-- From the finest to the coarsest. -/
def all : List Granularity := [min15, min30, hourly, daily, monthly, yearly]

def text : Granularity → String
  | min15 => "15min"
  | min30 => "30min"
  | hourly => "hourly"
  | daily => "daily"
  | monthly => "monthly"
  | yearly => "yearly"

/-- Letter case and blank space around the token do not matter. -/
def ofText? (token : String) : Option Granularity :=
  all.find? fun g => Text.sameLetters g.text (Text.trim token)

def toJson (g : Granularity) : Json := .string g.text

/-- In a document the token has to be exact. -/
def decode (src : Source) : Document → Decoded Granularity :=
  Decode.oneOf src (all.map fun g => (g.text, g))

end Granularity

end BucketQuery
