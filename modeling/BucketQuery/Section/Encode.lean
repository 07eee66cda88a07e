import BucketQuery.Calendar.Written
import BucketQuery.Filter.Encode
import BucketQuery.Json.Written
import BucketQuery.Section.Query

/-!
Queries and sections as JSON values, every field present. Dates are written to the second. -/
namespace BucketQuery.Section

def Dimensions.toJson (d : Dimensions) : Json :=
  .object [("channels", Json.strings d.channels), ("queues", Json.strings d.queues)]

def Advanced.toJson : Advanced → Json
  | .text condition => .string condition
  | .tree t => t.toJson

def Query.toJson (q : Query) : Json := .object [
  ("advancedFilters", Json.orNull (q.advanced.map Advanced.toJson)),
  ("columns", Json.strings q.columns),
  ("endDate", Json.orNull (q.endDate.map fun t => .string t.text)),
  ("filters", q.dimensions.toJson),
  ("groupBy", Json.orNull (q.groupBy.map .string)),
  ("startDate", Json.orNull (q.startDate.map fun t => .string t.text)),
  ("timeInterval", Json.orNull (q.timeInterval.map .string))]

def Dimensions.streamed (d : Dimensions) : Json :=
  .object [("queues", Json.strings d.queues), ("channels", Json.strings d.channels)]

def Advanced.streamed : Advanced → Json
  | .text condition => .string condition
  | .tree t => t.streamed

def Query.streamed (q : Query) : Json := .object [
  ("timeInterval", Json.orNull (q.timeInterval.map .string)),
  ("startDate", Json.orNull (q.startDate.map fun t => .string t.text)),
  ("endDate", Json.orNull (q.endDate.map fun t => .string t.text)),
  ("filters", q.dimensions.streamed),
  ("groupBy", Json.orNull (q.groupBy.map .string)),
  ("advancedFilters", Json.orNull (q.advanced.map Advanced.streamed)),
  ("columns", Json.strings q.columns)]

/-- A query as JSON text. -/
def Query.text (q : Query) : String := q.streamed.text

def Definition.toJson (d : Definition) : Json := .object [
  ("description", Json.orNull (d.description.map .string)),
  ("name", .string d.name),
  ("query", d.query.toJson),
  ("title", Json.orNull (d.title.map .string))]

end BucketQuery.Section
