import BucketQuery.Compile.Compiler
import BucketQuery.Section.Registry

/-!
Running a section: the query is compiled for the dialect of the warehouse, and the warehouse is asked
only if that succeeds. The warehouse is a state, what it will answer and what it has been asked so
far; its failures are reported as execution errors that name the table. -/
namespace BucketQuery

open Compile (Compiled Compiler)
open Section (Query Registry)

/-- What the warehouse answers: column names, and a JSON object for each row. -/
structure Warehouse.Rows where
  columns : List String
  rows : List Json
deriving Repr

structure Warehouse where
  dialect : Sql.Dialect
  /-- The answer to each question, counted from zero. -/
  answers : Nat → Result Warehouse.Rows
  asked : List Compiled := []

namespace Warehouse

/-- Asks the next question. -/
def execute (c : Compiled) : StateM Warehouse (Result Rows) := fun w =>
  (w.answers w.asked.length, {w with asked := w.asked ++ [c]})

/-- A failure of the warehouse on a query. -/
def executionError (c : Compiled) (e : Error) : Error :=
  if e.isExecution then e else .queryFailed c.table e

structure Report where
  compiled : Compiled
  rows : Rows

def runQuery (compiler : Compiler) (q : Query) : StateM Warehouse (Result Report) := do
  match compiler.compile (← get).dialect q with
  | .error e => return .error e
  | .ok c =>
    match ← execute c with
    | .ok rows => return .ok ⟨c, rows⟩
    | .error e => return .error (executionError c e)

def runSection (compiler : Compiler) (registry : Registry) (name : String) :
    StateM Warehouse (Result Report) :=
  match registry.get? name with
  | none => return .error (.invalid (.unknownSection name))
  | some s => runQuery compiler s.query

end Warehouse

end BucketQuery
