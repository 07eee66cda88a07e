import BucketQuery.Yaml.Token

/-!
The nodes of a YAML document. An alias is taken for the node it names. Where a key, a value or an
item may stand and does not, there is an empty scalar. -/
namespace BucketQuery.Yaml

inductive Node where
  | scalar (tag : Option String) (plain : Bool) (text : String)
  | sequence (tag : Option String) (items : List Node)
  | mapping (tag : Option String) (entries : List (Node × Node))
  /-- A node inside itself. -/
  | endless

namespace Node

def empty : Node := .scalar none true ""

/-- What is left to read, and the nodes with names so far, the latest first. -/
structure Rest where
  tokens : List Token
  anchors : List (String × Node) := []

abbrev Read := StateT Rest Option

def peek : Read Token := do
  match (← get).tokens with
  | t :: _ => return t
  | [] => failure

def drop : Read Unit := modify fun r => {r with tokens := r.tokens.tail}

def expect (t : Token) : Read Unit := do
  if (← peek) = t then drop else failure

def anchored (anchor : Option String) (n : Node) : Read Unit :=
  match anchor with
  | some name => modify fun r => {r with anchors := (name, n) :: r.anchors}
  | none => return

def anchor? : Read (Option String) := do
  match ← peek with
  | .anchor name => drop; return some name
  | _ => return none

/-- A tag in full. -/
def tag? (handles : List (String × String)) : Read (Option String) := do
  match ← peek with
  | .tag "" suffix => drop; return some suffix
  | .tag handle suffix =>
    drop
    match handles.lookup handle with
    | some lead => return some (lead ++ suffix)
    | none => failure
  | _ => return none

/-- An anchor and a tag, either of which may come first. -/
def properties (handles : List (String × String)) : Read (Option String × Option String) := do
  match ← anchor? with
  | some a => return (some a, ← tag? handles)
  | none =>
    let tag ← tag? handles
    return (← anchor?, tag)

/-! ### The grammar -/

mutual

/-- A node. Block collections may begin only where `block` holds; after a key, or after a colon, a
sequence need not be indented. -/
def node (handles : List (String × String)) (block afterKey : Bool) : (fuel : Nat) → Read Node
  | 0 => failure
  | fuel + 1 => do
    if let .alias name := ← peek then
      drop
      match (← get).anchors.lookup name with
      | some n => return n
      | none => failure
    let (anchor, tag) ← properties handles
    anchored anchor .endless
    let n ← content handles block afterKey (anchor.isSome || tag.isSome) tag fuel
    anchored anchor n
    return n

def content (handles : List (String × String)) (block afterKey mayBeEmpty : Bool)
    (tag : Option String) : (fuel : Nat) → Read Node
  | 0 => failure
  | fuel + 1 => do
    match ← peek with
    | .scalar plain text => drop; return .scalar tag plain text
    | .flowSequence => drop; return .sequence tag (← flowItems handles true fuel)
    | .flowMapping => drop; return .mapping tag (← flowEntries handles true fuel)
    | .blockEntry =>
      if afterKey then return .sequence tag (← openItems handles fuel)
      else if mayBeEmpty then return .scalar tag true ""
      else failure
    | .blockSequence =>
      if block then
        drop
        return .sequence tag (← blockItems handles fuel)
      else if mayBeEmpty then return .scalar tag true ""
      else failure
    | .blockMapping =>
      if block then
        drop
        return .mapping tag (← blockEntries handles fuel)
      else if mayBeEmpty then return .scalar tag true ""
      else failure
    | _ => if mayBeEmpty then return .scalar tag true "" else failure

/-- Items of an indented sequence. -/
def blockItems (handles : List (String × String)) : (fuel : Nat) → Read (List Node)
  | 0 => failure
  | fuel + 1 => do
    match ← peek with
    | .blockEntry =>
      drop
      let item ← match ← peek with
        | .blockEntry | .blockEnd => pure empty
        | _ => node handles true false fuel
      return item :: (← blockItems handles fuel)
    | .blockEnd => drop; return []
    | _ => failure

/-- Items of a sequence that is not indented beyond its key, and ends with them. -/
def openItems (handles : List (String × String)) : (fuel : Nat) → Read (List Node)
  | 0 => failure
  | fuel + 1 => do
    match ← peek with
    | .blockEntry =>
      drop
      let item ← match ← peek with
        | .blockEntry | .key | .value | .blockEnd => pure empty
        | _ => node handles true false fuel
      return item :: (← openItems handles fuel)
    | _ => return []

/-- A key or a value of a block mapping, its token off. -/
def blockPart (handles : List (String × String)) : (fuel : Nat) → Read Node
  | 0 => failure
  | fuel + 1 => do
    match ← peek with
    | .key | .value | .blockEnd => return empty
    | _ => node handles true true fuel

def blockEntries (handles : List (String × String)) : (fuel : Nat) → Read (List (Node × Node))
  | 0 => failure
  | fuel + 1 => do
    match ← peek with
    | .key =>
      drop
      let key ← blockPart handles fuel
      let value ← match ← peek with
        | .value => do drop; blockPart handles fuel
        | _ => pure empty
      return (key, value) :: (← blockEntries handles fuel)
    | .blockEnd => drop; return []
    | _ => failure

/-- Items up to the closing bracket. One of them may be a single entry of a mapping. -/
def flowItems (handles : List (String × String)) (first : Bool) : (fuel : Nat) → Read (List Node)
  | 0 => failure
  | fuel + 1 => do
    if (← peek) = .flowSequenceEnd then
      drop
      return []
    if !first then expect .flowEntry
    match ← peek with
    | .flowSequenceEnd => drop; return []
    | .key =>
      drop
      let entry ← flowPair handles fuel
      return .mapping none [entry] :: (← flowItems handles false fuel)
    | _ =>
      let item ← node handles false false fuel
      return item :: (← flowItems handles false fuel)

/-- The entry of a mapping that is an item, its key's token off. -/
def flowPair (handles : List (String × String)) : (fuel : Nat) → Read (Node × Node)
  | 0 => failure
  | fuel + 1 => do
    let key ← match ← peek with
      | .value | .flowEntry | .flowSequenceEnd => do drop; pure empty
      | _ => node handles false false fuel
    if (← peek) ≠ .value then return (key, empty)
    drop
    match ← peek with
    | .flowEntry | .flowSequenceEnd => return (key, empty)
    | _ => return (key, ← node handles false false fuel)

/-- Entries up to the closing brace. -/
def flowEntries (handles : List (String × String)) (first : Bool) :
    (fuel : Nat) → Read (List (Node × Node))
  | 0 => failure
  | fuel + 1 => do
    if (← peek) = .flowMappingEnd then
      drop
      return []
    if !first then expect .flowEntry
    match ← peek with
    | .flowMappingEnd => drop; return []
    | .key =>
      drop
      let key ← match ← peek with
        | .value | .flowEntry | .flowMappingEnd => pure empty
        | _ => node handles false false fuel
      if (← peek) ≠ .value then return (key, empty) :: (← flowEntries handles false fuel)
      drop
      let value ← match ← peek with
        | .flowEntry | .flowMappingEnd => pure empty
        | _ => node handles false false fuel
      return (key, value) :: (← flowEntries handles false fuel)
    | _ =>
      let key ← node handles false false fuel
      return (key, empty) :: (← flowEntries handles false fuel)

end

/-! ### Documents -/

/-- The directives before a document: handles of tags, and whether a version is stated. -/
def directives : (fuel : Nat) → (version : Bool) → (handles : List (String × String)) →
    Read (Bool × List (String × String))
  | 0, _, _ => failure
  | fuel + 1, version, handles => do
    match ← peek with
    | .version major minor =>
      if version || major ≠ 1 || (minor ≠ 1 && minor ≠ 2) then failure
      drop
      directives fuel true handles
    | .handle name lead =>
      if (handles.lookup name).isSome then failure
      drop
      directives fuel version ((name, lead) :: handles)
    | _ => return (version, handles)

/-- The marks that may follow a document. -/
def endMarks : (fuel : Nat) → Read Unit
  | 0 => failure
  | fuel + 1 => do
    if (← peek) = .documentEnd then
      drop
      endMarks fuel
    else expect .textEnd

/-- The only document of a text. -/
def soleDocument (fuel : Nat) : Read Node := do
  if (← peek) = .textEnd then failure
  let (version, handles) ← directives fuel false []
  let all := handles ++ [("!", "!"), ("!!", "tag:yaml.org,2002:")]
  let n ←
    if version || !handles.isEmpty || (← peek) = .documentStart then do
      expect .documentStart
      match ← peek with
      | .version .. | .handle .. | .documentStart | .documentEnd | .textEnd => pure empty
      | _ => node all true false fuel
    else node all true false fuel
  endMarks fuel
  return n

end Node

/-- The node of a text that holds one document; none if it does not. -/
def node? (text : String) : Option Node := do
  let tokens ← tokens? text
  let (n, _) ← (Node.soleDocument (4 * tokens.length + 4)).run {tokens}
  return n

end BucketQuery.Yaml
