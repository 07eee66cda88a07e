import BucketQuery.Files.Disk
import BucketQuery.Settings.Text

/-!
Settings from files. Without a choice of the user's, they are looked for in the usual places; a file that
is not there, or is no settings, is passed over. -/
namespace BucketQuery.Settings

open Files (Disk)

variable {m : Type → Type} [Monad m] (disk : Disk m)

def ofFile (path : String) : m (Result Settings) := do
  match ← disk.readText path with
  | .error reason => return .error (.config (.unreadable reason))
  | .ok text => return ofText text

/-- The first of some files that holds settings. -/
def firstOf : List String → m (Option Settings)
  | [] => return none
  | path :: rest => do
    match ← ofFile disk path with
    | .ok s => return some s
    | .error _ => firstOf rest

/-- What the user's surroundings say about where settings are. -/
structure Surroundings where
  /-- A file that is chosen outright. -/
  chosen : Option String := none
  /-- The folder of the user's settings for all programs. -/
  userFolder : Option String := none

/-- Where settings may be: the file that is chosen, one in the folder one works in, and one of the
user's. -/
def Surroundings.paths (s : Surroundings) : List String :=
  s.chosen.toList ++ ["callstats.toml"] ++
    s.userFolder.toList.map fun folder => Files.inside folder "callstats/config.toml"

def load (s : Surroundings) : m Settings := do
  return (← firstOf disk s.paths).getD {}

end BucketQuery.Settings
