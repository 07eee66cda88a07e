import BucketQuery.Decode.Scalar

/-!
Records: mappings with fields of fixed names. A record lists its fields in order, each with what it
does to the record under construction; fields of a document are taken in the order they stand, so
the first fault met is the one reported, and missing ones are looked for at the end. Where the
source allows it a record may also be written as the sequence of its fields. -/
namespace BucketQuery.Decode

structure Field (σ : Type) where
  name : String
  read : Document → σ → Decoded σ
  required : Bool := false

structure Record (σ : Type) where
  name : String
  fields : List (Field σ)
  /-- Whether fields of other names are refused and not passed over. -/
  closed : Bool := false

namespace Record

variable {σ : Type} (r : Record σ)

def names : List String := r.fields.map Field.name

/-- Takes the fields of a mapping in turn. `seen` holds the names met so far. -/
def readFields : (seen : List String) → σ → List (String × Document) → Decoded (List String × σ)
  | seen, acc, [] => .ok (seen, acc)
  | seen, acc, (name, d) :: rest =>
    match r.fields.find? (·.name == name) with
    | some field => do
      if seen.contains name then refuse (.duplicateField name)
      let acc ← field.read d acc
      readFields (name :: seen) acc rest
    | none => do
      if r.closed then refuse (.unknownField name r.names)
      ignore d
      readFields seen acc rest

def checkMissing (seen : List String) : Decoded Unit :=
  match r.fields.find? fun f => f.required && !seen.contains f.name with
  | some field => refuse (.missingField field.name)
  | none => .ok ()

/-- Takes the items of a sequence as the fields from place `i` on, and hands back those left over. -/
def readItems (stop : Option Break) :
    (i : Nat) → List (Field σ) → σ → List Document → Decoded (σ × List Document)
  | _, [], acc, items => .ok (acc, items)
  | i, field :: fields, acc, [] => do
    checkStop stop
    if field.required then
      refuse (.wrongLength i s!"struct {r.name} with {r.fields.length} elements")
    readItems stop (i + 1) fields acc []
  | i, field :: fields, acc, item :: items => do
    let acc ← field.read item acc
    readItems stop (i + 1) fields acc items

/-- Items beyond the last field. -/
def checkLeft (src : Source) (length : Nat) (stop : Option Break) : List Document → Decoded Unit
  | [] => checkStop stop
  | _ :: _ =>
    match src with
    | .json => .error (.fault .malformed)
    | .toml => .ok ()
    | _ => refuse (.wrongLength length "fewer elements in array")

def decode (src : Source) (start : σ) : Document → Decoded σ
  | .mapping fields stop => do
    let (seen, acc) ← r.readFields [] start fields
    checkStop stop
    r.checkMissing seen
    return acc
  | .sequence items stop =>
    if src = .yaml then refuse (.wrongType .sequence ("struct " ++ r.name))
    else do
      let (acc, left) ← r.readItems stop 0 r.fields start items
      checkLeft src items.length stop left
      return acc
  | .plain "" _ => do
    r.checkMissing []
    return start
  | d => unfit d ("struct " ++ r.name)

end Record

end BucketQuery.Decode
