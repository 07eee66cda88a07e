import BucketQuery.Files.Disk

/-!
A folder held as a value, as a disk of its own. Relative paths begin in the folder; above it there is
another that holds nothing, and there are no absolute paths. -/
namespace BucketQuery.Files

inductive Entry where
  | file (bytes : ByteArray)
  | folder (entries : List (String × Entry))

namespace Entry

/-- Follows names from an entry; `above` holds the folders around it, the innermost first. -/
def follow (above : List Entry) (here : Entry) : List String → Except PathFault Entry
  | [] => .ok here
  | name :: rest =>
    match here with
    | .file _ => .error .notFolder
    | .folder entries =>
      if name == "" || name == "." then follow above here rest
      else if name == ".." then
        match above with
        | up :: above => follow above up rest
        | [] => follow [] (.folder []) rest
      else
        match entries.lookup name with
        | some entry => follow (here :: above) entry rest
        | none => .error .notFound

def atPath (root : Entry) (path : String) : Except PathFault Entry :=
  match path.toList with
  | [] => .error .notFound
  | '/' :: _ => .error .notFound
  | cs => follow [] root (namesOf cs)

def bytes : Entry → Except PathFault ByteArray
  | .file bytes => .ok bytes
  | .folder _ => .error .isFolder

def isFolder : Entry → Bool
  | .folder _ => true
  | .file _ => false

def names : Entry → List String
  | .folder entries => entries.map Prod.fst
  | .file _ => []

/-- The disk that this entry is the root of. -/
def disk (root : Entry) : Disk Id where
  read path := ((root.atPath path).bind bytes).mapError PathFault.message
  holds path := (root.atPath path).toOption.isSome
  isFolder path := (root.atPath path).toOption.any isFolder
  names path := ((root.atPath path).toOption.map names).getD []

/-- Puts an entry at a path, with the folders that lead there. An empty folder takes nothing away. -/
def put (entry : Entry) : List String → List (String × Entry) → List (String × Entry)
  | [], entries => entries
  | [name], entries =>
    match entry, entries.lookup name with
    | .folder [], some (.folder _) => entries
    | entry, _ => entries.filter (·.1 != name) ++ [(name, entry)]
  | name :: path, entries =>
    let within := match entries.lookup name with
      | some (.folder within) => within
      | _ => []
    entries.filter (·.1 != name) ++ [(name, .folder (put entry path within))]

/-- The folder that holds the given entries, each at its path. -/
def ofPaths (entries : List (String × Entry)) : Entry :=
  .folder (entries.foldl (fun kept (path, entry) => put entry (namesOf path.toList) kept) [])

end Entry

end BucketQuery.Files
