import BucketQuery.Toml.Scalar
import BucketQuery.Toml.Table
import BucketQuery.Toml.Text

/-!
Reading TOML. A text is a list of lines, each empty, a header, or a key with its value; `document?` is
none when it is not TOML, whatever the reason. -/
namespace BucketQuery.Toml

/-- How many arrays and inline tables may enclose one another, and how many names a key may have. -/
def deepest : Nat := 80

def checkedKey? (cs : List Char) : Option (List String × List Char) := do
  let (names, rest) ← key? cs.length cs
  if names.length < deepest then some (names, rest) else none

mutual

def value? (depth : Nat) : (fuel : Nat) → List Char → Option (Document × List Char)
  | 0, _ => none
  | fuel + 1, cs =>
    match cs with
    | '"' :: _ => (string? cs).map fun (s, rest) => (.string s, rest)
    | '\'' :: _ => (string? cs).map fun (s, rest) => (.string s, rest)
    | '[' :: rest =>
      if depth + 1 < deepest then
        (items? (depth + 1) fuel (skipLines rest.length rest)).map fun (ds, rest) =>
          (.sequence ds none, rest)
      else none
    | '{' :: rest =>
      if depth + 1 < deepest then
        match skipSpace rest with
        | '}' :: rest => some (.mapping [] none, rest)
        | rest => (pairs? (depth + 1) fuel [] rest).map fun (fs, rest) =>
          ((Item.table .header fs).document, rest)
      else none
    | cs => scalar? cs

/-- Items up to the closing bracket; a comma may follow the last. -/
def items? (depth : Nat) : (fuel : Nat) → List Char → Option (List Document × List Char)
  | 0, _ => none
  | fuel + 1, cs =>
    match cs with
    | ']' :: rest => some ([], rest)
    | cs => do
      let (d, rest) ← value? depth fuel cs
      match skipLines rest.length rest with
      | ']' :: rest => return ([d], rest)
      | ',' :: rest =>
        let (ds, rest) ← items? depth fuel (skipLines rest.length rest)
        return (d :: ds, rest)
      | _ => none

/-- Keys and values up to the closing brace, all on one line. -/
def pairs? (depth : Nat) : (fuel : Nat) → Fields → List Char → Option (Fields × List Char)
  | 0, _, _ => none
  | fuel + 1, fs, cs => do
    let (names, rest) ← checkedKey? cs
    match rest with
    | '=' :: rest =>
      let (d, rest) ← value? depth fuel (skipSpace rest)
      let fs ← fs.setDotted d names
      match skipSpace rest with
      | '}' :: rest => return (fs, rest)
      | ',' :: rest => pairs? depth fuel fs rest
      | _ => none
    | _ => none

end

/-- The table of the text so far, and the header its lines are under. -/
structure State where
  root : Fields := []
  header : List String := []

/-- The names of a header up to its closing brackets. -/
def header? (cs : List Char) : Option (List String × String × List Char) := do
  let (names, rest) ← checkedKey? cs
  let last ← names.getLast?
  return (names.dropLast, last, rest)

def line? (s : State) (cs : List Char) : Option (State × List Char) :=
  match cs with
  | '[' :: '[' :: rest => do
    let (path, last, rest) ← header? rest
    match rest with
    | ']' :: ']' :: rest =>
      let root ← s.root.atHeader (Fields.beginElement last) path
      return (⟨root, path ++ [last]⟩, rest)
    | _ => none
  | '[' :: rest => do
    let (path, last, rest) ← header? rest
    match rest with
    | ']' :: rest =>
      let root ← s.root.atHeader (Fields.begin last) path
      return (⟨root, path ++ [last]⟩, rest)
    | _ => none
  | cs => do
    let (names, rest) ← checkedKey? cs
    match rest with
    | '=' :: rest =>
      let (d, rest) ← value? 0 (2 * rest.length + 2) (skipSpace rest)
      let root ← s.root.atHeader (Fields.setDotted d names) s.header
      return ({s with root}, rest)
    | _ => none

def lines? : (fuel : Nat) → State → List Char → Option Fields
  | 0, _, _ => none
  | fuel + 1, s, cs =>
    match skipLines cs.length cs with
    | [] => some s.root
    | cs => do
      let (s, rest) ← line? s cs
      let rest ← lineEnd? rest
      lines? fuel s rest

/-- A text as a document. A byte order mark may stand before it. -/
def document? (text : String) : Option Document :=
  let cs := match text.toList with
    | '\ufeff' :: rest => rest
    | cs => cs
  (lines? (cs.length + 1) {} cs).map fun fs => (Item.table .header fs).document

end BucketQuery.Toml
