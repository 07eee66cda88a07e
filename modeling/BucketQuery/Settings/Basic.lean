import BucketQuery.Granularity
import BucketQuery.Sql.Expr

/-!
Settings: how the compiler treats doubtful requests, which table holds each bucket size, and where the
warehouse is. Everything has a default. -/
namespace BucketQuery

structure CompilerSettings where
  /-- An unknown interval fails instead of meaning daily. -/
  strictGranularity : Bool := false
  /-- Condition text is accepted in place of a filter tree. -/
  allowRawFilters : Bool := false
  /-- The deepest nesting of groups that is compiled. -/
  maxGroupDepth : Nat := 4
  literalMode : Sql.LiteralMode := .bound
deriving DecidableEq, Repr

structure Tables where
  min15 : String := "stats_15min"
  min30 : String := "stats_30min"
  hourly : String := "stats_hourly"
  daily : String := "stats_daily"
  monthly : String := "stats_monthly"
  yearly : String := "stats_yearly"
deriving DecidableEq, Repr

def Tables.tableFor (ts : Tables) : Granularity → String
  | .min15 => ts.min15
  | .min30 => ts.min30
  | .hourly => ts.hourly
  | .daily => ts.daily
  | .monthly => ts.monthly
  | .yearly => ts.yearly

structure WarehouseSettings where
  path : String := ":memory:"
  maxConcurrency : Nat := 16
deriving DecidableEq, Repr

structure Settings where
  compiler : CompilerSettings := {}
  tables : Tables := {}
  warehouse : WarehouseSettings := {}
deriving DecidableEq, Repr

end BucketQuery
