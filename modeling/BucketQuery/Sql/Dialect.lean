import BucketQuery.Sql.Value
import BucketQuery.Text.Blank

/-!
What sets the dialects of SQL apart: the placeholder of a parameter, and how a quote or a backslash is
written inside a literal. -/
namespace BucketQuery.Sql

structure Dialect where
  name : String
  /-- The placeholder of the parameter at a place, counted from zero. -/
  placeholder : Nat → String
  /-- How a character is written between the quotes of a literal. -/
  escapeChar : Char → List Char

namespace Dialect

/-- A quote is written twice. -/
def doubleQuote (c : Char) : List Char := if c = '\'' then ['\'', '\''] else [c]

def duckdb : Dialect := ⟨"duckdb", fun _ => "?", doubleQuote⟩

/-- Parameters are numbered from one. -/
def postgres : Dialect := ⟨"postgres", fun i => "$" ++ toString (i + 1), doubleQuote⟩

/-- A backslash is an escape character here and is written twice as well. -/
def mysql : Dialect :=
  ⟨"mysql", fun _ => "?", fun c => if c = '\\' then ['\\', '\\'] else doubleQuote c⟩

def all : List Dialect := [duckdb, mysql, postgres]

/-- Letter case and blank space around the name do not matter. -/
def ofName? (name : String) : Option Dialect :=
  let name := (Text.trim name).toLower
  let name := if name = "postgresql" then "postgres" else name
  all.find? fun d => d.name == name

variable (d : Dialect)

def escape (s : String) : String := String.ofList (s.toList.flatMap d.escapeChar)

/-- A value as a literal. What has no digits is written as NULL. -/
def literal : Value → String
  | .null => "NULL"
  | .bool true => "1"
  | .bool false => "0"
  | .int n => toString n
  | .float x => x.literal?.getD "NULL"
  | .text s => "'" ++ d.escape s ++ "'"
  | .timestamp t => "'" ++ t.text ++ "'"

end Dialect

end BucketQuery.Sql
