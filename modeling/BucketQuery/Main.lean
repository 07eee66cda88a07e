import BucketQuery.CommandLine

/-!
The program: the command line on the disk and in the surroundings it is run in. -/
namespace BucketQuery

open Files (Disk PathFault)

/-- Nothing is at the empty path. -/
def isFolderHere (path : String) : IO Bool := do
  if path.isEmpty then return false else ((← IO.currentDir) / path).isDir

def systemDisk : Disk IO where
  read path := do
    if ← isFolderHere path then return .error PathFault.isFolder.message
    try return .ok (← IO.FS.readBinFile path)
    catch
      | .noFileOrDirectory .. => return .error PathFault.notFound.message
      | e => return .error (toString e)
  holds path := do
    if path.isEmpty then return false else ((← IO.currentDir) / path).pathExists
  isFolder := isFolderHere
  names path := do
    try return (← ((← IO.currentDir) / path).readDir).toList.map fun entry => entry.fileName
    catch _ => return []

def userFolder : IO (Option String) := do
  match ← IO.getEnv "XDG_CONFIG_HOME" with
  | some folder => if folder.startsWith "/" then return some folder
  | none => pure ()
  return (← IO.getEnv "HOME").map fun home => Files.inside home ".config"

def complain : CommandLine.Complaint → IO Unit
  | .usage => IO.eprintln CommandLine.Complaint.usage.message
  | .unreadableRequest path reason => do
    IO.eprintln ("Error: " ++ (CommandLine.Complaint.unreadableRequest path reason).message)
    IO.eprintln ("\nCaused by:\n    " ++ reason)
  | c => IO.eprintln ("Error: " ++ c.message)

end BucketQuery

open BucketQuery in
def main (args : List String) : IO UInt32 := do
  let surroundings := ⟨← IO.getEnv "CALLSTATS_CONFIG", ← userFolder⟩
  match ← (CommandLine.answer systemDisk surroundings args).run with
  | .ok lines =>
    lines.forM IO.println
    return 0
  | .error c =>
    complain c
    return 1
