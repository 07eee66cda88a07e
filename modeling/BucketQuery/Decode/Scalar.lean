import BucketQuery.Decode.Mismatch

/-!
Decoding the plain parts of a document: strings, switches, sizes, lists, values that may be missing,
and a choice among names. -/
namespace BucketQuery

def Document.found : Document → Decode.Found
  | .null => .null
  | .bool b => .bool b
  | .number n => .number n
  | .string s => .string s
  | .plain _ meaning => meaning.found
  | .sequence .. => .sequence
  | .mapping .. => .mapping
  | .broken _ => .null

namespace Decode

def refuse {α : Type} (m : Mismatch) : Decoded α := .error (.mismatch m)

/-- A document of the wrong type, or one that cannot be read. -/
def unfit {α : Type} (d : Document) (expected : String) : Decoded α :=
  match d with
  | .broken b => .error (.fault b.read)
  | d => refuse (.wrongType d.found expected)

def checkStop : Option Break → Decoded Unit
  | some b => .error (.fault b.read)
  | none => .ok ()

/-- A document that nobody asks for still has to end. -/
def ignore (d : Document) : Decoded Unit :=
  match d.skip with
  | some f => .error (.fault f)
  | none => .ok ()

def json (src : Source) (d : Document) : Decoded Json := (d.toJson src).mapError .fault

def string : Document → Decoded String
  | .string s => .ok s
  | .plain word _ => .ok word
  | d => unfit d "a string"

def bool : Document → Decoded Bool
  | .bool b => .ok b
  | .plain _ (.bool b) => .ok b
  | d => unfit d "a boolean"

/-- A whole number from zero up. -/
def size : Document → Decoded Nat
  | .number (.int n) => if 0 ≤ n then .ok n.toNat else refuse (.wrongValue (.number (.int n)) "usize")
  | d => unfit d "usize"

/-- Null, or nothing, is a missing value. -/
def optional {α : Type} (read : Document → Decoded α) (d : Document) : Decoded (Option α) :=
  if d.isNull then .ok none else some <$> read d

def each {α : Type} (read : Document → Decoded α) : List Document → Decoded (List α)
  | [] => .ok []
  | d :: rest => do
    let a ← read d
    return a :: (← each read rest)

def list {α : Type} (read : Document → Decoded α) : Document → Decoded (List α)
  | .sequence items stop => do
    let as ← each read items
    checkStop stop
    return as
  | .plain "" _ => .ok []
  | d => unfit d "a sequence"

def strings : Document → Decoded (List String) := list string

/-! ### A choice among names -/

/-- The content that goes with a name that needs none. -/
def noContent (src : Source) : Document → Decoded Unit
  | .null => .ok ()
  | d =>
    match src, d with
    | .toml, .sequence [] none => .ok ()
    | .toml, .mapping [] none => .ok ()
    | _, d => unfit d "unit"

def variant {α : Type} (options : List (String × α)) (name : String) : Decoded α :=
  match options.lookup name with
  | some a => .ok a
  | none => refuse (.unknownVariant name (options.map Prod.fst))

/-- A choice written as a mapping has one field. JSON text is not looked at beyond it. -/
def singleField (src : Source) (fields : List (String × Document)) (stop : Option Break) :
    Decoded (String × Document) :=
  match src, fields with
  | .json, f :: _ => .ok f
  | .json, [] => do
    checkStop stop
    .error (.fault .malformed)
  | _, [f] => .ok f
  | _, _ => refuse (.wrongValue .mapping "map with a single key")

/-- What must follow the one field of a choice. -/
def singleEnd (src : Source) (fields : List (String × Document)) (stop : Option Break) : Decoded Unit :=
  match src, fields with
  | .json, _ :: _ :: _ => .error (.fault .malformed)
  | _, _ => checkStop stop

/-- A document that is neither a name nor a mapping. -/
def noChoice {α : Type} (src : Source) (d : Document) : Decoded α :=
  match src, d with
  | .json, .broken b => .error (.fault b.read)
  | .json, _ => .error (.fault .malformed)
  | _, d => unfit d "string or map"

/-- One of several names, or a mapping from one of them to nothing. -/
def oneOf {α : Type} (src : Source) (options : List (String × α)) : Document → Decoded α
  | .string s => variant options s
  | .mapping fields stop => do
    let (name, content) ← singleField src fields stop
    let a ← variant options name
    noContent src content
    singleEnd src fields stop
    return a
  | d => noChoice src d

end BucketQuery.Decode
