import BucketQuery.Decode.Mismatch
import BucketQuery.Json.Reading

/-!
Decoding whole texts and whole values. -/
namespace BucketQuery.Decode

/-- Reads a JSON text; what follows its value counts only once the value itself is accepted. -/
def ofText {α : Type} (read : Source → Document → Decoded α) (text : String) : Decoded α := do
  let (d, after) := Json.document text
  let a ← read .json d
  match after with
  | some f => .error (.fault f)
  | none => return a

def ofJson {α : Type} (read : Source → Document → Decoded α) (v : Json) : Decoded α :=
  read .value (Document.ofJson v)

end BucketQuery.Decode
