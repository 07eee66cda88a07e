import BucketQuery.Compile.DateRange
import BucketQuery.Compile.Tree
import BucketQuery.Error
import BucketQuery.Section.Query
import BucketQuery.Sql.Forbidden

/-!
The compiler: from the query of a section to one statement. The base of every statement is the range of
dates and the restrictions to queues and channels; a filter of the user's making is added in
parentheses behind them. A compile fails for an unknown interval where that is an error, and for
condition text that is not allowed; anything else that cannot be expressed is left out with a
warning. -/
namespace BucketQuery.Compile

open Section (Advanced Query)
open Sql (Dialect Expr LiteralMode Select Value)

structure Compiled where
  sql : String
  /-- The values of the placeholders, in order; none where values are inline. -/
  params : List Value
  table : String
  granularity : Granularity
  /-- The user's filter alone, with its values inline. -/
  filterSql : Option String
  warnings : List Warning
deriving DecidableEq, Repr

/-- Something was dropped that the filter was to have. -/
def Compiled.degraded (c : Compiled) : Bool := c.warnings.any Warning.widensFilter

/-- A compiler has settings, and tables all of whose names are identifiers. -/
structure Compiler where
  settings : CompilerSettings
  tables : Tables
  tables_valid : ∀ g, Sql.isIdentifier (tables.tableFor g) = true

namespace Compiler

theorem default_tables_valid : ∀ g, Sql.isIdentifier (({} : Tables).tableFor g) = true := by
  intro g
  cases g <;> decide

def default : Compiler := ⟨{}, {}, default_tables_valid⟩

theorem tables_valid_of_find {tables : Tables}
    (h : Granularity.all.find? (fun g => !Sql.isIdentifier (tables.tableFor g)) = none) :
    ∀ g, Sql.isIdentifier (tables.tableFor g) = true := by
  intro g
  have := List.find?_eq_none.mp h g (by cases g <;> simp [Granularity.all])
  simpa using this

/-- The bucket sizes are gone through from the finest on. -/
def new (settings : CompilerSettings) (tables : Tables) : Result Compiler :=
  match h : Granularity.all.find? fun g => !Sql.isIdentifier (tables.tableFor g) with
  | some g => .error (.config (.badTable (tables.tableFor g) g.text))
  | none => .ok ⟨settings, tables, tables_valid_of_find h⟩

def ofSettings (s : Settings) : Result Compiler := new s.compiler s.tables

end Compiler

/-! ### The parts of a statement -/

def resolveGranularity (strict : Bool) (token : Option String) :
    Result (Granularity × List Warning) :=
  match granularityOf token with
  | (g, none) => .ok (g, [])
  | (g, some token) =>
    if strict then .error (.invalid (.unknownInterval token))
    else .ok (g, [.unknownGranularity token])

def checkText (text : String) : Result Unit :=
  match Sql.forbidden? text with
  | some token => .error (.unsafeFilter (.forbidden token))
  | none => .ok ()

/-- Condition text is examined before it matters whether it is allowed at all. -/
def advanced (s : CompilerSettings) : Option Advanced → Result (Option Expr × List Warning)
  | none => .ok (none, [])
  | some (.text condition) =>
    let condition := Text.trim condition
    if condition.isEmpty then .ok (none, [])
    else do
      checkText condition
      if s.allowRawFilters then return (some (.raw condition), [])
      else .error (.invalid .rawFiltersDisabled)
  | some (.tree t) => .ok (tree s.maxGroupDepth t)

/-- The columns shown, all of them where none is left. -/
def projection (columns : List String) : List String × List Warning :=
  let (kept, refused) := (columns.map Text.trim).partition fun c => c == "*" || Sql.isIdentifier c
  (if kept.isEmpty then ["*"] else kept, refused.map (.invalidIdentifier .column))

def groupKey (key : Option String) : Option String × List Warning :=
  let key := Text.trim (key.getD "")
  if key.isEmpty then (none, [])
  else if Sql.isIdentifier key then (some key, [])
  else (none, [.invalidIdentifier .groupBy key])

def datesWarning (q : Query) : List Warning :=
  match q.startDate, q.endDate with
  | some s, some e => if q.inverted then [.invertedDates s.text e.text] else []
  | _, _ => []

/-- What every statement of the query restricts, whatever the user's filter. -/
def baseFilters (r : Route) (q : Query) : List Expr :=
  dateFilters r q.startDate q.endDate ++
    q.dimensions.restrictions.map fun (column, values) => .inList column (values.map .text)

def select (r : Route) (q : Query) (filter : Option Expr) : Select where
  columns := (projection q.columns).1
  table := r.table
  filters := baseFilters r q ++ (filter.map .nested).toList
  groupBy := (groupKey q.groupBy).1
  orderBy := r.orderBy

def Compiler.compileWith (c : Compiler) (mode : LiteralMode) (d : Dialect) (q : Query) :
    Result Compiled := do
  let (g, fallback) ← resolveGranularity c.settings.strictGranularity q.timeInterval
  let r := route g c.tables
  let (filter, dropped) ← advanced c.settings q.advanced
  let rendered := (select r q filter).render d mode
  return {
    sql := rendered.sql
    params := rendered.params
    table := r.table
    granularity := g
    filterSql := filter.map fun e => (e.render d .inline).sql
    warnings :=
      fallback ++ dropped ++ datesWarning q ++ (projection q.columns).2 ++ (groupKey q.groupBy).2}

/-- Compiles in the mode of the settings. -/
def Compiler.compile (c : Compiler) : Dialect → Query → Result Compiled :=
  c.compileWith c.settings.literalMode

end BucketQuery.Compile
