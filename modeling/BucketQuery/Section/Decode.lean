import BucketQuery.Calendar.Reading
import BucketQuery.Filter.Decode
import BucketQuery.Section.Query

/-!
Reading queries and sections from documents. A filter of the user's making is first read as a plain
value and then as a tree, so whatever the source, the tree is read as a value is. -/
namespace BucketQuery.Section

open Decode

def Dimensions.record : Record Dimensions where
  name := "DimensionFilters"
  fields := [
    {name := "queues", read := fun d f => (fun queues => {f with queues}) <$> strings d},
    {name := "channels", read := fun d f => (fun channels => {f with channels}) <$> strings d}]

def Dimensions.decode (src : Source) : Document → Decoded Dimensions := record.decode src {}

/-- A calendar text; blank text and null are no date. -/
def instant (d : Document) : Decoded (Option Calendar.Instant) := do
  match ← optional string d with
  | none => return none
  | some s =>
    let s := Text.trim s
    if s.isEmpty then return none
    match Calendar.Instant.ofText? s with
    | some t => return some t
    | none => refuse (.notCalendar s)

/-- A filter from its value: condition text or a tree. -/
def Advanced.ofJson : Json → Decoded Advanced
  | .string s => .ok (.text s)
  | .object fields =>
    match Filter.Tree.decode .value (Document.ofJson (.object fields)) with
    | .ok t => .ok (.tree t)
    | .error (.mismatch m) => refuse (.inFilterTree m)
    | .error f => .error f
  | v => refuse (.notFilter v)

def Advanced.decode (src : Source) (d : Document) : Decoded Advanced := json src d >>= Advanced.ofJson

def Query.record (src : Source) : Record Query where
  name := "SectionQuery"
  fields := [
    {name := "timeInterval",
      read := fun d q => (fun timeInterval => {q with timeInterval}) <$> optional string d},
    {name := "startDate", read := fun d q => (fun startDate => {q with startDate}) <$> instant d},
    {name := "endDate", read := fun d q => (fun endDate => {q with endDate}) <$> instant d},
    {name := "filters",
      read := fun d q => (fun dimensions => {q with dimensions}) <$> Dimensions.decode src d},
    {name := "groupBy", read := fun d q => (fun groupBy => {q with groupBy}) <$> optional string d},
    {name := "advancedFilters",
      read := fun d q => (fun advanced => {q with advanced}) <$> optional (Advanced.decode src) d},
    {name := "columns", read := fun d q => (fun columns => {q with columns}) <$> strings d}]

def Query.decode (src : Source) : Document → Decoded Query := (record src).decode src {}

def Definition.record (src : Source) : Record Definition where
  name := "SectionDefinition"
  closed := true
  fields := [
    {name := "name", required := true, read := fun d s => (fun name => {s with name}) <$> string d},
    {name := "title", read := fun d s => (fun title => {s with title}) <$> optional string d},
    {name := "description",
      read := fun d s => (fun description => {s with description}) <$> optional string d},
    {name := "query", required := true,
      read := fun d s => (fun query => {s with query}) <$> Query.decode src d}]

def Definition.decode (src : Source) : Document → Decoded Definition :=
  (record src).decode src ⟨"", none, none, {}⟩

end BucketQuery.Section
