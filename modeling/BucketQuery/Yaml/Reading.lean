import BucketQuery.Yaml.Meaning
import BucketQuery.Yaml.Node

/-!
Reading YAML. `document?` is none when a text is not YAML or does not hold one document, whatever the
reason. What cannot stand as a value, such as a key that is a collection, is a fault only for whoever
reads it. -/
namespace BucketQuery.Yaml

/-- How many collections may enclose one another. -/
def deepest : Nat := 128

/-- A place that cannot be read but can be passed over. -/
def unreadable : Break := ⟨.malformed, none⟩

namespace Node

/-- The name that a node is as a key. -/
def name? : Node → Option String
  | .scalar _ _ text => some text
  | _ => none

def scalarDocument (tag : Option String) (plain : Bool) (text : String) : Document :=
  match tag with
  | some tag =>
    match taggedMeaning tag text with
    | .string s => if plain then .plain text (.string s) else .string s
    | meaning => .plain text meaning
  | none => if plain then .plain text (Yaml.meaning text) else .string text

/-- A collection at `depth`, which is too deep to be read below the deepest level, and whose tag must
not be one of the text's own. -/
def collection (tag : Option String) (depth : Nat) (d : Document) : Document :=
  if depth < deepest && !tag.any (·.startsWith "!") then d else .broken unreadable

mutual

def document (depth : Nat) : Node → Document
  | .scalar tag plain text => scalarDocument tag plain text
  | .sequence tag items => collection tag depth (.sequence (documents (depth + 1) items) none)
  | .mapping tag entries =>
    let (fields, stop) := fieldDocuments (depth + 1) entries
    collection tag depth (.mapping fields stop)
  | .endless => .broken unreadable

def documents (depth : Nat) : List Node → List Document
  | [] => []
  | n :: rest => n.document depth :: documents depth rest

/-- Fields up to a key that is no name. -/
def fieldDocuments (depth : Nat) : List (Node × Node) → List (String × Document) × Option Break
  | [] => ([], none)
  | (key, value) :: rest =>
    match key.name? with
    | some name =>
      let (fields, stop) := fieldDocuments depth rest
      ((name, value.document depth) :: fields, stop)
    | none => ([], some unreadable)

end

end Node

def document? (text : String) : Option Document := (node? text).map (Node.document 0)

end BucketQuery.Yaml
