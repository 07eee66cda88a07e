import BucketQuery.Decode.Text
import BucketQuery.Files.Disk
import BucketQuery.Section.Decode
import BucketQuery.Section.Registry
import BucketQuery.Yaml.Reading

/-!
Sections from files: a folder holds one section to a file, in YAML or in JSON. -/
namespace BucketQuery.Section

open Files (Disk)

def Definition.ofYaml (text : String) : Result Definition :=
  match (Yaml.document? text).map (Definition.decode .yaml) with
  | some (.ok s) => .ok s
  | _ => .error .yaml

def Definition.ofJsonText (text : String) : Result Definition :=
  (Decode.ofText Definition.decode text).mapError .json

namespace Registry

variable {m : Type → Type} [Monad m] (disk : Disk m)

/-- Says of a section that does not fit in which file it is. -/
def located {α : Type} (path : String) : Result α → Result α
  | .error (.invalid cause) => .error (.invalid (.inFile cause path))
  | r => r

/-- A file whose name ends in `.json` is JSON, any other YAML. -/
def insertFile (r : Registry) (path : String) : m (Result Registry) := do
  match ← disk.readText path with
  | .error reason => return .error (.io reason)
  | .ok text =>
    let read := if Files.extension? path = some "json" then Definition.ofJsonText else Definition.ofYaml
    return do located path (r.insert (← read text))

def insertFiles (r : Registry) : List String → m (Result Registry)
  | [] => return .ok r
  | path :: rest => do
    match ← insertFile disk r path with
    | .ok r => insertFiles r rest
    | .error e => return .error e

/-- The names that sections have, in the order in which they are looked for. -/
def filePatterns : List String := ["*.yml", "*.yaml", "*.json"]

def insertMatching (folder : String) (r : Registry) : List String → m (Result Registry)
  | [] => return .ok r
  | pattern :: rest => do
    match ← disk.matching (folder ++ "/" ++ pattern) with
    | .error e => return .error e
    | .ok paths =>
      match ← insertFiles disk r paths with
      | .error e => return .error e
      | .ok r => insertMatching folder r rest

/-- The sections of a folder. Wildcards in its path are wildcards too. -/
def ofFolder (path : String) : m (Result Registry) := do
  if ← disk.isFolder path then insertMatching disk path empty filePatterns
  else return .error (.invalid (.directoryNotFound path))

end Registry

end BucketQuery.Section
