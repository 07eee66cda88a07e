import BucketQuery.Json.Value

/-!
Documents: what a reader of structured text hands on. A document keeps its fields in the order they
were written, repeated ones included, and it may break off: the place where a text could not be read
further is part of the document, so that whoever walks it meets faults of the text and unsuitable
values in the order of the text, and never meets what lies in a part it skips.

`Document.toJson` is the plain value of a document, and `ofJson` the document of a value. -/
namespace BucketQuery

/-- Where a document came from. Sources differ in what they let stand for a record or a choice. -/
inductive Source where
  /-- A value that was read before. -/
  | value
  /-- JSON text. -/
  | json
  | yaml
  | toml
deriving DecidableEq

/-- What is wrong with a text. -/
inductive Fault where
  | malformed
  /-- The text ends too early. -/
  | endOfText
deriving DecidableEq, Repr

/-- A place that cannot be read. Some can still be skipped: a number out of range, half a pair of
escapes, too deep a nesting. -/
structure Break where
  read : Fault
  skipped : Option Fault

def Break.final (f : Fault) : Break := ⟨f, some f⟩

inductive Document where
  | null
  | bool (b : Bool)
  | number (n : Json.Number)
  | string (s : String)
  /-- A word without quotes: a string where one is wanted, else what the word stands for. -/
  | plain (word : String) (meaning : Document)
  | sequence (items : List Document) (stop : Option Break)
  | mapping (fields : List (String × Document)) (stop : Option Break)
  | broken (b : Break)

namespace Document

mutual

def ofJson : Json → Document
  | .null => .null
  | .bool b => .bool b
  | .number n => .number n
  | .string s => .string s
  | .array items => .sequence (ofItems items) none
  | .object fields => .mapping (ofFields fields) none

def ofItems : List Json → List Document
  | [] => []
  | v :: rest => ofJson v :: ofItems rest

def ofFields : List (String × Json) → List (String × Document)
  | [] => []
  | (n, v) :: rest => (n, ofJson v) :: ofFields rest

end

mutual

/-- What is met in skipping a document. -/
def skip : Document → Option Fault
  | .sequence items stop => (skipItems items).or (stop.bind Break.skipped)
  | .mapping fields stop => (skipFields fields).or (stop.bind Break.skipped)
  | .broken b => b.skipped
  | _ => none

def skipItems : List Document → Option Fault
  | [] => none
  | d :: rest => d.skip.or (skipItems rest)

def skipFields : List (String × Document) → Option Fault
  | [] => none
  | (_, d) :: rest => d.skip.or (skipFields rest)

end

/-- Whether a document stands for nothing at all. -/
def isNull : Document → Bool
  | .null => true
  | .plain _ meaning => meaning.isNull
  | _ => false

mutual

/-- The value of a document. Fields go into the order of their names, the last of equal names kept;
a value that was read before has them so already. -/
def toJson (src : Source) : Document → Except Fault Json
  | .null => .ok .null
  | .bool b => .ok (.bool b)
  | .number (.int n) => .ok (.int n)
  | .number (.float x) => .ok (if x.isFinite then .float x else .null)
  | .string s => .ok (.string s)
  | .plain _ meaning => meaning.toJson src
  | .sequence items stop => do
    let values ← itemsToJson src items
    match stop with
    | some b => .error b.read
    | none => .ok (.array values)
  | .mapping fields stop => do
    let values ← fieldsToJson src fields
    match stop with
    | some b => .error b.read
    | none => .ok (if src = .value then .object values else Json.ofFields values)
  | .broken b => .error b.read

def itemsToJson (src : Source) : List Document → Except Fault (List Json)
  | [] => .ok []
  | d :: rest => do
    let v ← d.toJson src
    return v :: (← itemsToJson src rest)

def fieldsToJson (src : Source) : List (String × Document) → Except Fault (List (String × Json))
  | [] => .ok []
  | (n, d) :: rest => do
    let v ← d.toJson src
    return (n, v) :: (← fieldsToJson src rest)

end

end BucketQuery.Document
