import BucketQuery.Compile.Compiler
import BucketQuery.Section.File
import BucketQuery.Settings.File

/-!
The command line. It compiles one request, from a file of its own or stored as a section in a folder, and
answers with the statement on its first line and remarks below, which are SQL comments. -/
namespace BucketQuery.CommandLine

open Compile (Compiled Compiler)
open Files (Disk)
open Section (Query Registry)

/-- Where the request is. -/
inductive Subject where
  | file (path : String)
  | stored (folder name : String)
deriving DecidableEq, Repr

structure Arguments where
  inline : Bool
  dialect : Sql.Dialect
  subject : Subject

/-- Why there is no statement. -/
inductive Complaint where
  /-- The arguments are not of the right number. -/
  | usage
  | unknownDialect (name : String)
  | unreadableRequest (path reason : String)
  | badRequest (cause : Decode.Failure)
  | sectionNotFound (name folder : String)
  | failed (cause : Error)

def Complaint.message : Complaint → String
  | .usage =>
    "Usage: bucketquery <request_json> [--inline] [--dialect <name>]\n" ++
    "       bucketquery <sections_dir> <section_name> [--inline] [--dialect <name>]\n" ++
    "Dialects: duckdb (default), postgres, mysql"
  | .unknownDialect name => "unknown dialect " ++ name
  | .unreadableRequest path _ => "reading request " ++ path
  | .badRequest cause => cause.message
  | .sectionNotFound name folder => "section " ++ name ++ " not found in " ++ folder
  | .failed cause => cause.message

/-! ### Arguments -/

/-- The value behind the first of an option, and the arguments without both; none if the option comes
last and has no value. -/
def takeValue? (option : String) (args : List String) : Option (Option String × List String) :=
  match args.span (· != option) with
  | (before, _ :: value :: rest) => some (some value, before ++ rest)
  | (_, [_]) => none
  | (before, []) => some (none, before)

def arguments (args : List String) : Except Complaint Arguments := do
  let inline := args.contains "--inline"
  match takeValue? "--dialect" (args.erase "--inline") with
  | none => .error .usage
  | some (name, rest) =>
    let dialect ← match name with
      | none => pure Sql.Dialect.duckdb
      | some name =>
        match Sql.Dialect.ofName? name with
        | some d => pure d
        | none => .error (.unknownDialect name)
    match rest with
    | [path] => return ⟨inline, dialect, .file path⟩
    | [folder, name] => return ⟨inline, dialect, .stored folder name⟩
    | _ => .error .usage

/-! ### The statement -/

variable {m : Type → Type} [Monad m] (disk : Disk m)

def request (subject : Subject) : ExceptT Complaint m Query := do
  match subject with
  | .file path =>
    match ← disk.readText path with
    | .error reason => throw (.unreadableRequest path reason)
    | .ok text => (Decode.ofText Query.decode text).mapError Complaint.badRequest
  | .stored folder name =>
    let registry ← ExceptT.mk do return (← Registry.ofFolder disk folder).mapError Complaint.failed
    match registry.get? name with
    | some s => return s.query
    | none => throw (.sectionNotFound name folder)

/-- The lines of an answer. -/
def lines (c : Compiled) : List String :=
  [c.sql] ++
  (if c.params.isEmpty then []
    else ["-- params: " ++ (Json.array (c.params.map Sql.Value.toJson)).text]) ++
  c.warnings.map fun w => "-- warning: " ++ w.message

def answer (surroundings : Settings.Surroundings) (args : List String) :
    ExceptT Complaint m (List String) := do
  let a ← (arguments args : Except Complaint Arguments)
  let query ← request disk a.subject
  let settings ← (Settings.load disk surroundings : m Settings)
  let compiled : Result Compiled := do
    let compiler ← Compiler.ofSettings settings
    let mode := if a.inline then .inline else settings.compiler.literalMode
    compiler.compileWith mode a.dialect query
  return lines (← compiled.mapError Complaint.failed)

end BucketQuery.CommandLine
