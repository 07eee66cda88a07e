import BucketQuery.Json.Document

/-!
Tables under construction, as the lines of a TOML text build them. A table may come to be by a header of
its own, by a header of a table inside it, or by a dotted key; how it came to be decides what may
still be added. Nothing is ever defined twice. -/
namespace BucketQuery.Toml

/-- How a table came to be. -/
inductive Origin where
  /-- By its own header, or as the table of a whole text or element. -/
  | header
  /-- By the header of a table inside it. -/
  | inner
  /-- By a dotted key. -/
  | dotted
deriving DecidableEq

inductive Item where
  | value (d : Document)
  | table (origin : Origin) (fields : List (String × Item))
  /-- An array of tables, each begun by a header of its own. -/
  | tables (elements : List (List (String × Item)))

abbrev Fields := List (String × Item)

mutual

def Item.document : Item → Document
  | .value d => d
  | .table _ fields => .mapping (fieldsDocuments fields) none
  | .tables elements => .sequence (elementsDocuments elements) none

def fieldsDocuments : List (String × Item) → List (String × Document)
  | [] => []
  | (n, i) :: rest => (n, i.document) :: fieldsDocuments rest

def elementsDocuments : List (List (String × Item)) → List Document
  | [] => []
  | e :: rest => .mapping (fieldsDocuments e) none :: elementsDocuments rest

end

namespace Fields

def get? (fs : Fields) (name : String) : Option Item := fs.lookup name

/-- Puts an item in the place of the one with its name, or at the end. -/
def put (name : String) (i : Item) : Fields → Fields
  | [] => [(name, i)]
  | (n, j) :: rest => if n = name then (name, i) :: rest else (n, j) :: put name i rest

/-- Changes the last of some elements. -/
def changeLast (change : Fields → Option Fields) : List Fields → Option (List Fields)
  | [] => none
  | [e] => (change e).map ([·])
  | e :: rest => (changeLast change rest).map (e :: ·)

/-- Changes the table that a header leads to; of an array of tables it is the last element. Tables on
the way that are not there come to be. -/
def atHeader (change : Fields → Option Fields) : List String → Fields → Option Fields
  | [], fs => change fs
  | name :: path, fs =>
    match fs.get? name with
    | none => do
      let inner ← atHeader change path []
      return fs.put name (.table .inner inner)
    | some (.table origin inner) => do
      let inner ← atHeader change path inner
      return fs.put name (.table origin inner)
    | some (.tables elements) => do
      let elements ← changeLast (atHeader change path) elements
      return fs.put name (.tables elements)
    | some (.value _) => none

/-- Begins the table of a header. One that came to be by a table inside it is taken over. -/
def begin (name : String) (fs : Fields) : Option Fields :=
  match fs.get? name with
  | none => some (fs.put name (.table .header []))
  | some (.table .inner inner) => some (fs.put name (.table .header inner))
  | some _ => none

/-- Begins a further element of an array of tables. -/
def beginElement (name : String) (fs : Fields) : Option Fields :=
  match fs.get? name with
  | none => some (fs.put name (.tables [[]]))
  | some (.tables elements) => some (fs.put name (.tables (elements ++ [[]])))
  | some _ => none

/-- Sets a value under a key that is not dotted. -/
def set (name : String) (d : Document) (fs : Fields) : Option Fields :=
  match fs.get? name with
  | none => some (fs.put name (.value d))
  | some _ => none

/-- Sets a value under a dotted key. The tables on the way may not have headers of their own, and the
last has to have come to be by a dotted key. -/
def setDotted (d : Document) : List String → Fields → Option Fields
  | [], _ => none
  | [name], fs => fs.set name d
  | name :: path, fs =>
    match fs.get? name with
    | none => do
      let inner ← setDotted d path []
      return fs.put name (.table .dotted inner)
    | some (.table origin inner) =>
      if origin = .header ∨ (path.length = 1 ∧ origin ≠ .dotted) then none
      else do
        let inner ← setDotted d path inner
        return fs.put name (.table origin inner)
    | some (.tables elements) =>
      if path.length = 1 then none
      else do
        let elements ← changeLast (setDotted d path) elements
        return fs.put name (.tables elements)
    | some (.value _) => none

end Fields

end BucketQuery.Toml
