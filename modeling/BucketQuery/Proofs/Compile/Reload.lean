import BucketQuery.Proofs.Compile.Plan
import BucketQuery.Proofs.Section.RoundTrip
import BucketQuery.Proofs.Sql.Fragment
import BucketQuery.Warehouse.Parameter

/-! Saving a query and loading it again.

What comes back of a stored query has lost the parts of a second in its dates, and a compile never writes
them: a column is compared with a text to the second or with a whole hour, day, month or year, and a key
with whole numbers. So up to the parts of a second in its values a statement is known from what came back
(`select_wholeSeconds`), and no rendering shows those. Main statement, `reload_runs_same`: the query that
was loaded runs as the one that was saved. -/
namespace BucketQuery

open Calendar (Instant)

/-! ### Values to the second -/

theorem Calendar.Instant.wholeSecond_wholeSecond (t : Instant) :
    t.wholeSecond.wholeSecond = t.wholeSecond := by
  have hnano : billion * (billion * (t.nano / billion) / billion) = billion * (t.nano / billion) := by
    rw [Nat.mul_div_cancel_left _ (by decide)]
  simp only [wholeSecond, hnano]

namespace Sql

/-- The value without the part of a second. -/
def Value.wholeSecond : Value → Value
  | .timestamp t => .timestamp t.wholeSecond
  | v => v

theorem Dialect.literal_wholeSecond (d : Dialect) (v : Value) : d.literal v.wholeSecond = d.literal v := by
  cases v with
  | timestamp t => rw [Value.wholeSecond, literal, literal, t.wholeSecond_text]
  | null | bool | int | float | text => rfl

end Sql

theorem Warehouse.Parameter.ofValue_wholeSecond (v : Sql.Value) : ofValue v.wholeSecond = ofValue v := by
  cases v with
  | timestamp t => rw [Sql.Value.wholeSecond, ofValue, ofValue, t.wholeSecond_text]
  | null | bool | int | float | text => rfl

namespace Sql.Piece

def wholeSecond : Piece → Piece
  | .text s => .text s
  | .value v => .value v.wholeSecond

variable (d : Dialect)

theorem boundText_wholeSecond (i : Nat) (ps : List Piece) :
    boundText d i (ps.map wholeSecond) = boundText d i ps := by
  induction ps generalizing i with
  | nil => rfl
  | cons p rest ih => cases p <;> simp only [List.map_cons, wholeSecond, boundText, ih]

theorem inlineText_wholeSecond (ps : List Piece) :
    inlineText d (ps.map wholeSecond) = inlineText d ps := by
  induction ps with
  | nil => rfl
  | cons p rest ih =>
    cases p <;> simp only [List.map_cons, wholeSecond, inlineText, d.literal_wholeSecond, ih]

theorem parameters_wholeSecond (ps : List Piece) :
    (values (ps.map wholeSecond)).map Warehouse.Parameter.ofValue =
      (values ps).map Warehouse.Parameter.ofValue := by
  induction ps with
  | nil => rfl
  | cons p rest ih =>
    cases p with
    | text s => exact ih
    | value v =>
      simp only [List.map_cons, wholeSecond, values, Warehouse.Parameter.ofValue_wholeSecond, ih]

variable {d}

/-- Pieces that differ in parts of a second render to one text and to parameters that the warehouse
takes for the same. -/
theorem render_of_wholeSecond {ps qs : List Piece} (h : ps.map wholeSecond = qs.map wholeSecond)
    (mode : LiteralMode) :
    (render d mode ps).sql = (render d mode qs).sql ∧
      (render d mode ps).params.map Warehouse.Parameter.ofValue =
        (render d mode qs).params.map Warehouse.Parameter.ofValue := by
  cases mode with
  | bound =>
    refine ⟨?_, ?_⟩
    · show boundText d 0 ps = boundText d 0 qs
      rw [← boundText_wholeSecond, h, boundText_wholeSecond]
    · show (values ps).map _ = (values qs).map _
      rw [← parameters_wholeSecond, h, parameters_wholeSecond]
  | inline =>
    refine ⟨?_, rfl⟩
    show inlineText d ps = inlineText d qs
    rw [← inlineText_wholeSecond, h, inlineText_wholeSecond]

end Sql.Piece

namespace Compile

open Section (Query)
open Sql (Dialect Expr LiteralMode Piece)

/-! ### Statements -/

theorem BoundFormat.value_wholeSecond (t : Instant) (f : BoundFormat) :
    (f.value t.wholeSecond).wholeSecond = (f.value t).wholeSecond := by
  cases f with
  | timestamp => rw [value, value, Sql.Value.wholeSecond, Sql.Value.wholeSecond, t.wholeSecond_wholeSecond]
  | hour | date | month | year => rfl

theorem Route.keyValues_wholeSecond (r : Route) (t : Instant) :
    r.keyValues t.wholeSecond = r.keyValues t := by
  refine List.map_congr_left fun part _ => ?_
  cases part <;> rfl

theorem keyFilter_wholeSecond (r : Route) (side : Side) (t : Option Instant) :
    keyFilter r side (t.map Instant.wholeSecond) = keyFilter r side t := by
  cases t with
  | none => rfl
  | some t => rw [Option.map_some, keyFilter, keyFilter, r.keyValues_wholeSecond]

theorem columnFilter_wholeSecond (r : Route) (start finish : Option Instant) :
    (Sql.Select.wherePieces (columnFilter r (start.map Instant.wholeSecond)
        (finish.map Instant.wholeSecond))).map Piece.wholeSecond =
      (Sql.Select.wherePieces (columnFilter r start finish)).map Piece.wholeSecond := by
  cases start <;> cases finish <;>
    simp only [Option.map_none, Option.map_some, columnFilter, Sql.Select.wherePieces, List.flatMap_cons,
      List.flatMap_nil, Expr.pieces, List.append_nil, List.map_cons, List.map_nil, Piece.wholeSecond,
      BoundFormat.value_wholeSecond]

/-- The filters of a statement behind the one that compares its column with dates. -/
def laterFilters (r : Route) (q : Query) (filter : Option Expr) : List Expr :=
  keyFilter r .lower q.startDate ++ keyFilter r .upper q.endDate ++
    q.dimensions.restrictions.map (fun (column, values) => .inList column (values.map .text)) ++
    (filter.map .nested).toList

theorem select_filters (r : Route) (q : Query) (filter : Option Expr) :
    (select r q filter).filters =
      columnFilter r q.startDate q.endDate ++ laterFilters r q filter := by
  simp only [select, baseFilters, dateFilters, laterFilters, List.append_assoc]

theorem laterFilters_wholeSeconds (r : Route) (q : Query) (filter : Option Expr) :
    laterFilters r q.wholeSeconds filter = laterFilters r q filter := by
  simp only [laterFilters, Query.wholeSeconds, keyFilter_wholeSecond]

/-- Up to parts of a second, the statement of a query is that of the query without them. -/
theorem select_wholeSeconds (r : Route) (q : Query) (filter : Option Expr) :
    (select r q.wholeSeconds filter).pieces.map Piece.wholeSecond =
      (select r q filter).pieces.map Piece.wholeSecond := by
  have hhead : (select r q.wholeSeconds filter).head = (select r q filter).head :=
    Sql.Select.head_congr rfl rfl
  have htail : (select r q.wholeSeconds filter).tail = (select r q filter).tail :=
    Sql.Select.tail_congr rfl rfl
  have hcolumn := columnFilter_wholeSecond r q.startDate q.endDate
  rw [Sql.Select.pieces, Sql.Select.pieces, select_filters, select_filters, laterFilters_wholeSeconds,
    Sql.Select.wherePieces_append, Sql.Select.wherePieces_append, hhead, htail]
  simp only [Query.wholeSeconds, List.map_cons, List.map_append, hcolumn]

/-! ### Runs -/

/-- What a compile hands to the warehouse, and what it says of it. -/
structure Run where
  sql : String
  parameters : List Warehouse.Parameter
  table : String
  granularity : Granularity
  filterSql : Option String
deriving DecidableEq

def Compiled.run (c : Compiled) : Run where
  sql := c.sql
  parameters := c.params.map Warehouse.Parameter.ofValue
  table := c.table
  granularity := c.granularity
  filterSql := c.filterSql

/-- A plan is made of the same parts, and its statement runs alike. -/
theorem run_wholeSeconds (c : Compiler) (mode : LiteralMode) (d : Dialect) (q : Query) :
    (c.compileWith mode d q.wholeSeconds).map Compiled.run =
      (c.compileWith mode d q).map Compiled.run := by
  have htime : q.wholeSeconds.timeInterval = q.timeInterval := rfl
  have hadvanced : q.wholeSeconds.advanced = q.advanced := rfl
  unfold Compiler.compileWith
  rw [htime, hadvanced]
  cases resolveGranularity c.settings.strictGranularity q.timeInterval with
  | error e => simp only [bind, Except.bind, Except.map]
  | ok resolved =>
    cases advanced c.settings q.advanced with
    | error e => simp only [bind, Except.bind, Except.map]
    | ok found =>
      obtain ⟨g, fallback⟩ := resolved
      obtain ⟨filter, dropped⟩ := found
      obtain ⟨hsql, hparameters⟩ :=
        Piece.render_of_wholeSecond (d := d) (select_wholeSeconds (route g c.tables) q filter) mode
      simp only [bind, Except.bind, pure, Except.pure, Except.map, Compiled.run, Sql.Select.render_eq, hsql,
        hparameters]

/-- **A query that was saved and loaded runs as before.** What is read of a stored query compiles, in
every dialect and either mode, to the same text with the same parameters, on the same table, or fails
alike, also where its dates had parts of a second. -/
theorem reload_runs_same (c : Compiler) {q : Query} (h : q.WellFormed) :
    ∃ reloaded, Decode.ofJson Query.decode q.toJson = .ok reloaded ∧
      ∀ mode d, (c.compileWith mode d reloaded).map Compiled.run =
        (c.compileWith mode d q).map Compiled.run :=
  ⟨q.wholeSeconds, Query.decode_toJson h, fun mode d => run_wholeSeconds c mode d q⟩

/-- From the middle of a second to a part of a leap second, with a filter that is half filled. -/
def halfSecondQuery : Query := {
  timeInterval := some "15min"
  startDate := some ⟨.epoch, 7201, 500000000, by decide⟩
  endDate := some ⟨.epoch, 43259, 1250000000, by decide⟩
  advanced := some (.tree ⟨[
    .condition ⟨"agent", some (Filter.Operator.ofText " like% "), .string "an", .and, false⟩,
    .condition ⟨"", none, .null, .or, true⟩]⟩)}

theorem reload_half_second :
    halfSecondQuery.WellFormed ∧ halfSecondQuery.wholeSeconds ≠ halfSecondQuery ∧
      ∃ reloaded, Decode.ofJson Query.decode halfSecondQuery.toJson = .ok reloaded ∧
        ∀ mode d, (Compiler.default.compileWith mode d reloaded).map Compiled.run =
          (Compiler.default.compileWith mode d halfSecondQuery).map Compiled.run := by
  have hlike : (Filter.Operator.ofText " like% ").Obtained := .parsed _
  have hquery : halfSecondQuery.WellFormed := by
    rintro _ ⟨⟩
    simp only [Section.Advanced.WellFormed, Filter.Tree.WellFormed, Filter.Node.AllWellFormed,
      Filter.Node.WellFormed, and_true]
    exact ⟨⟨by rintro _ ⟨⟩; exact hlike, rfl⟩, ⟨by rintro _ ⟨⟩, rfl⟩⟩
  exact ⟨hquery, by decide, reload_runs_same .default hquery⟩

end Compile

end BucketQuery
