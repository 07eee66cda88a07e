import BucketQuery.Decode.Mismatch
import BucketQuery.Files.Pattern

/-!
Everything that can go wrong, by cause. The message of an error starts with the kind of thing that
failed. -/
namespace BucketQuery

/-- Why a configuration is refused. -/
inductive ConfigFault where
  | unreadable (reason : String)
  | unparsable
  /-- The table of a bucket size is not an identifier. -/
  | badTable (table granularity : String)
  | reported (text : String)
deriving DecidableEq, Repr

/-- Why a request is refused. -/
inductive Invalid where
  | unknownInterval (token : String)
  | rawFiltersDisabled
  | blankSectionName
  | duplicateSection (name : String)
  | unknownSection (name : String)
  | directoryNotFound (path : String)
  /-- The fault of a section was found in a file. -/
  | inFile (cause : Invalid) (path : String)
  | reported (text : String)
deriving DecidableEq, Repr

inductive UnsafeFilter where
  | forbidden (token : String)
  | reported (text : String)
deriving DecidableEq, Repr

inductive Error where
  | io (text : String)
  | yaml
  | json (cause : Decode.Failure)
  | config (cause : ConfigFault)
  | invalid (cause : Invalid)
  | unsafeFilter (cause : UnsafeFilter)
  | sql (text : String)
  | execution (text : String)
  /-- The warehouse failed on a query of a table. -/
  | queryFailed (table : String) (cause : Error)
  /-- A pattern for file names is at fault at a place in it. -/
  | badPattern (place : Nat) (fault : Files.PatternFault)
  | other (text : String)

def ConfigFault.message : ConfigFault → String
  | .unreadable reason => "failed to read config file: " ++ reason
  | .unparsable => "failed to parse config"
  | .badTable table granularity =>
    "table " ++ Text.quoted table ++ " for " ++ granularity ++ " is not a valid identifier"
  | .reported text => text

def Invalid.message : Invalid → String
  | .unknownInterval token => "unknown time interval " ++ Text.quoted token
  | .rawFiltersDisabled => "raw WHERE filters are disabled; send a filter tree"
  | .blankSectionName => "section name must not be empty"
  | .duplicateSection name => "duplicate section " ++ name
  | .unknownSection name => "unknown section " ++ name
  | .directoryNotFound path => "sections directory not found: " ++ path
  | .inFile cause path => cause.message ++ " (in " ++ path ++ ")"
  | .reported text => text

def UnsafeFilter.message : UnsafeFilter → String
  | .forbidden token => "raw filter contains forbidden token " ++ token.toUpper
  | .reported text => text

def Decode.Failure.message : Decode.Failure → String
  | .fault .malformed => "syntax"
  | .fault .endOfText => "eof"
  | .mismatch m => m.message

namespace Error

def message : Error → String
  | io text => "io error: " ++ text
  | yaml => "yaml parse error"
  | json cause => "json error: " ++ cause.message
  | config cause => "config error: " ++ cause.message
  | invalid cause => "validation error: " ++ cause.message
  | unsafeFilter cause => "unsafe filter rejected: " ++ cause.message
  | sql text => "sql generation error: " ++ text
  | execution text => "execution error: " ++ text
  | queryFailed table cause => "execution error: query on " ++ table ++ " failed: " ++ cause.message
  | badPattern place fault =>
    "Pattern syntax error near position " ++ toString place ++ ": " ++ fault.message
  | other text => text

def isExecution : Error → Bool
  | execution _ | queryFailed .. => true
  | _ => false

end Error

abbrev Result (α : Type) := Except Error α

end BucketQuery
