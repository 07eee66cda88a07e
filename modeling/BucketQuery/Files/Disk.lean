import BucketQuery.Error
import BucketQuery.Files.Pattern

/-!
Files as a program sees them: by paths, through a `Disk` that answers for what is at each. The answers may
come from a real disk or from a `Folder` held as a value; what is asked for does not depend on it. -/
namespace BucketQuery.Files

/-- Why a path leads to nothing that can be read. -/
inductive PathFault where
  | notFound
  /-- A file stands where a folder is needed. -/
  | notFolder
  /-- There is a folder and not a file. -/
  | isFolder
deriving DecidableEq, Repr

def PathFault.message : PathFault → String
  | .notFound => "No such file or directory (os error 2)"
  | .notFolder => "Not a directory (os error 20)"
  | .isFolder => "Is a directory (os error 21)"

structure Disk (m : Type → Type) where
  /-- The bytes of the file at a path, or why they cannot be read. -/
  read : String → m (Except String ByteArray)
  /-- Whether anything is at a path. -/
  holds : String → m Bool
  isFolder : String → m Bool
  /-- The names in the folder at a path, in any order; nothing if they cannot be listed. -/
  names : String → m (List String)

/-- The names of a path, which slashes keep apart. -/
def namesOf (path : List Char) : List String := (path.splitOn '/').map String.ofList

/-- The path of a name inside a folder. -/
def inside (folder name : String) : String :=
  if folder.toList.getLast? = some '/' then folder ++ name else folder ++ "/" ++ name

/-- What follows the last dot of the last name of a path. A dot that begins the name does not count. -/
def extension? (path : String) : Option String :=
  let name := path.toList.reverse.takeWhile (· != '/')
  match name.span (· != '.') with
  | (_, [_]) | (_, []) => none
  | (ending, _) => some (String.ofList ending.reverse)

namespace Disk

variable {m : Type → Type} [Monad m] (disk : Disk m)

/-- A file as a text. -/
def readText (path : String) : m (Except String String) := do
  match ← disk.read path with
  | .error reason => return .error reason
  | .ok bytes =>
    match String.fromUTF8? bytes with
    | some text => return .ok text
    | none => return .error "stream did not contain valid UTF-8"

/-! ### The files that match a pattern -/

/-- How many names a path can have beyond those that its pattern asks for. -/
def deepest : Nat := 4096

mutual

/-- The paths beyond `folder` that match a pattern for each further name. A name without wildcards is
only looked up; `here` says whether `folder` is where relative paths begin, and is not written. -/
def beyond (fuel : Nat) (patterns : List Pattern) (here : Bool) (folder : String) : m (List String) :=
  match fuel, patterns with
  | 0, _ => return []
  | _, [] => return [folder]
  | fuel + 1, p :: rest => do
    let pathOf (name : String) : String := if here then name else inside folder name
    match Pattern.literal? p with
    | some name =>
      let name := String.ofList name
      let stays := name == "." || name == ".."
      if ← if stays then disk.isFolder folder else disk.holds (pathOf name) then
        beyond fuel rest (here && name == ".") (pathOf name)
      else return []
    | none =>
      if !(← disk.isFolder folder) then return []
      let dots :=
        if p.head? = some (.char '.') then [['.', '.'], ['.']].filter (Pattern.admits p) else []
      let first ← dots.mapM fun name =>
        beyond fuel rest (here && name == ['.']) (inside folder (String.ofList name))
      let names := (← disk.names folder).mergeSort
      let later ← names.mapM fun name => through fuel p rest name (pathOf name)
      return first.flatten ++ later.flatten

/-- The paths that lead through one entry of a folder whose names are to match `p`. -/
def through (fuel : Nat) (p : Pattern) (rest : List Pattern) (name path : String) : m (List String) :=
  match fuel with
  | 0 => return []
  | fuel + 1 =>
    if p = [.deep] then do
      let rest := rest.dropWhile (· = [.deep])
      let folder ← disk.isFolder path
      let deeper ← if folder then beyond fuel ([.deep] :: rest) false path else pure []
      match rest with
      | [] => return if folder then path :: deeper else []
      | q :: rest =>
        let found ← if Pattern.admits q name.toList then beyond fuel rest false path else pure []
        return found ++ deeper
    else if Pattern.admits p name.toList then beyond fuel rest false path
    else return []

end

/-- The paths that match a pattern, whose wildcards may stand in any name, in order. -/
def matching (pattern : String) : m (Result (List String)) := do
  let absolute : Bool := pattern.toList.head? = some '/'
  let path := if absolute then pattern.toList.drop 1 else pattern.toList
  let read : Except (Nat × PatternFault) (List Pattern) := do
    discard (Pattern.ofText pattern)
    (namesOf path).mapM Pattern.ofText
  match read with
  | .error (place, fault) => return .error (.badPattern place fault)
  | .ok patterns =>
    let fuel := deepest + patterns.length
    return .ok (← disk.beyond fuel patterns (!absolute) (if absolute then "/" else "."))

end Disk

end BucketQuery.Files
