import BucketQuery.Decode.Record
import BucketQuery.Settings.Basic

/-!
Settings in documents. Every part may be left out, and unknown fields are passed over. -/
namespace BucketQuery

open Decode

namespace Sql.LiteralMode

def decode (src : Source) : Document → Decoded LiteralMode :=
  oneOf src ([bound, inline].map fun m => (m.text, m))

def toJson (m : LiteralMode) : Json := .string m.text

end Sql.LiteralMode

namespace CompilerSettings

def record (src : Source) : Record CompilerSettings where
  name := "CompilerConfig"
  fields := [
    {name := "strict_granularity",
      read := fun d s => (fun strictGranularity => {s with strictGranularity}) <$> bool d},
    {name := "allow_raw_filters",
      read := fun d s => (fun allowRawFilters => {s with allowRawFilters}) <$> bool d},
    {name := "max_group_depth",
      read := fun d s => (fun maxGroupDepth => {s with maxGroupDepth}) <$> size d},
    {name := "literal_mode",
      read := fun d s => (fun literalMode => {s with literalMode}) <$> Sql.LiteralMode.decode src d}]

def toJson (s : CompilerSettings) : Json := Json.ofFields [
  ("strict_granularity", .bool s.strictGranularity),
  ("allow_raw_filters", .bool s.allowRawFilters),
  ("max_group_depth", .int s.maxGroupDepth),
  ("literal_mode", s.literalMode.toJson)]

end CompilerSettings

namespace Tables

def record : Record Tables where
  name := "TableConfig"
  fields := [
    {name := "min15", read := fun d t => (fun min15 => {t with min15}) <$> string d},
    {name := "min30", read := fun d t => (fun min30 => {t with min30}) <$> string d},
    {name := "hourly", read := fun d t => (fun hourly => {t with hourly}) <$> string d},
    {name := "daily", read := fun d t => (fun daily => {t with daily}) <$> string d},
    {name := "monthly", read := fun d t => (fun monthly => {t with monthly}) <$> string d},
    {name := "yearly", read := fun d t => (fun yearly => {t with yearly}) <$> string d}]

def decode (src : Source) : Document → Decoded Tables := record.decode src {}

def toJson (t : Tables) : Json := Json.ofFields [
  ("min15", .string t.min15), ("min30", .string t.min30), ("hourly", .string t.hourly),
  ("daily", .string t.daily), ("monthly", .string t.monthly), ("yearly", .string t.yearly)]

end Tables

namespace WarehouseSettings

def record : Record WarehouseSettings where
  name := "WarehouseConfig"
  fields := [
    {name := "path", read := fun d s => (fun path => {s with path}) <$> string d},
    {name := "max_concurrency",
      read := fun d s => (fun maxConcurrency => {s with maxConcurrency}) <$> size d}]

def toJson (s : WarehouseSettings) : Json := Json.ofFields [
  ("path", .string s.path), ("max_concurrency", .int s.maxConcurrency)]

end WarehouseSettings

namespace Settings

def record (src : Source) : Record Settings where
  name := "CallstatsConfig"
  fields := [
    {name := "compiler",
      read := fun d s =>
        (fun compiler => {s with compiler}) <$> (CompilerSettings.record src).decode src {} d},
    {name := "tables", read := fun d s => (fun tables => {s with tables}) <$> Tables.decode src d},
    {name := "warehouse",
      read := fun d s =>
        (fun warehouse => {s with warehouse}) <$> WarehouseSettings.record.decode src {} d}]

def decode (src : Source) : Document → Decoded Settings := (record src).decode src {}

def toJson (s : Settings) : Json := Json.ofFields [
  ("compiler", s.compiler.toJson), ("tables", s.tables.toJson), ("warehouse", s.warehouse.toJson)]

end Settings

end BucketQuery
