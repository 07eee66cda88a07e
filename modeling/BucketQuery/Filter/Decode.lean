import BucketQuery.Decode.Record
import BucketQuery.Filter.Tree

/-!
Reading filters from documents. A condition is never refused for what its parts hold, only for not
being a record. A list of nodes comes in two shapes, as `children` or as `conditions` and `groups`,
and not in both. -/
namespace BucketQuery.Filter

open Decode

namespace Condition

def empty : Condition := ⟨"", none, .null, .and, false⟩

def setField (c : Condition) : Json → Condition
  | .string s => {c with field := s}
  | _ => {c with field := ""}

def setOperator (c : Condition) : Json → Condition
  | .null => {c with operator := none}
  | v => {c with operator := some (Operator.ofJson v)}

def setNegated (c : Condition) : Json → Condition
  | .bool b => {c with negated := b}
  | _ => {c with negated := false}

def record (src : Source) : Record Condition where
  name := "RawCondition"
  fields := [
    {name := "field", read := fun d c => c.setField <$> json src d},
    {name := "operator", read := fun d c => c.setOperator <$> json src d},
    {name := "value", read := fun d c => (fun v => {c with value := v}) <$> json src d},
    {name := "logicalOperator",
      read := fun d c => (fun v => {c with joins := Connective.ofJson v}) <$> json src d},
    {name := "isNot", read := fun d c => c.setNegated <$> json src d}]

def decode (src : Source) : Document → Decoded Condition := (record src).decode src empty

end Condition

/-- The parts of a list of nodes met so far: nothing yet, or what stood there, which may be null. -/
structure Parts where
  joins : Option Connective := none
  conditions : Option (Option (List Condition)) := none
  groups : Option (Option (List Group)) := none
  children : Option (Option (List Node)) := none

namespace Parts

def connective (p : Parts) : Connective := p.joins.getD .and

def nodes (p : Parts) : Decoded (List Node) :=
  match p.children.join, p.conditions.join, p.groups.join with
  | some _, some _, _ | some _, _, some _ => refuse .bothShapes
  | some children, none, none => .ok children
  | none, conditions, groups => .ok (Tree.ofParts (conditions.getD []) (groups.getD [])).children

def group (p : Parts) : Decoded Group := (⟨p.connective, ·⟩) <$> p.nodes

def tree (p : Parts) : Decoded Tree := Tree.mk <$> p.nodes

end Parts

/-- A part that has been met may not come again. -/
def once {α : Type} (name : String) (met : Option α) : Decoded Unit :=
  if met.isSome then refuse (.duplicateField name) else .ok ()

def recordName : String := "RawNodeList"

mutual

/-- A list of nodes as the parts of its record. -/
def parts (src : Source) : Document → Decoded Parts
  | .mapping fields stop => do
    let p ← partFields src {} fields
    checkStop stop
    return p
  | .sequence items stop =>
    if src = .yaml then refuse (.wrongType .sequence ("struct " ++ recordName))
    else partItems src stop items
  | .plain "" _ => .ok {}
  | d => unfit d ("struct " ++ recordName)

def partFields (src : Source) : Parts → List (String × Document) → Decoded Parts
  | p, [] => .ok p
  | p, (name, d) :: rest =>
    if name = "logicalOperator" then do
      once name p.joins
      let v ← json src d
      partFields src {p with joins := some (Connective.ofJson v)} rest
    else if name = "conditions" then do
      once name p.conditions
      let cs ← optional (list (Condition.decode src)) d
      partFields src {p with conditions := some cs} rest
    else if name = "groups" then do
      once name p.groups
      let gs ← groups src d
      partFields src {p with groups := some gs} rest
    else if name = "children" then do
      once name p.children
      let ns ← children src d
      partFields src {p with children := some ns} rest
    else do
      ignore d
      partFields src p rest

/-- The parts in the order of the record: the connective, conditions, groups, children. -/
def partItems (src : Source) (stop : Option Break) : List Document → Decoded Parts
  | [] => do
    checkStop stop
    return {}
  | [a] => do
    let v ← json src a
    checkStop stop
    return {joins := some (Connective.ofJson v)}
  | [a, b] => do
    let v ← json src a
    let cs ← optional (list (Condition.decode src)) b
    checkStop stop
    return {joins := some (Connective.ofJson v), conditions := some cs}
  | [a, b, c] => do
    let v ← json src a
    let cs ← optional (list (Condition.decode src)) b
    let gs ← groups src c
    checkStop stop
    return {joins := some (Connective.ofJson v), conditions := some cs, groups := some gs}
  | a :: b :: c :: d :: left => do
    let v ← json src a
    let cs ← optional (list (Condition.decode src)) b
    let gs ← groups src c
    let ns ← children src d
    Record.checkLeft src (left.length + 4) stop left
    return ⟨some (Connective.ofJson v), some cs, some gs, some ns⟩

def groups (src : Source) : Document → Decoded (Option (List Group))
  | .sequence items stop => do
    let gs ← groupItems src items
    checkStop stop
    return some gs
  | d => if d.isNull then .ok none else unfit d "a sequence"

def groupItems (src : Source) : List Document → Decoded (List Group)
  | [] => .ok []
  | d :: rest => do
    let p ← parts src d
    let g ← p.group
    return g :: (← groupItems src rest)

def children (src : Source) : Document → Decoded (Option (List Node))
  | .sequence items stop => do
    let ns ← nodeItems src items
    checkStop stop
    return some ns
  | d => if d.isNull then .ok none else unfit d "a sequence"

def nodeItems (src : Source) : List Document → Decoded (List Node)
  | [] => .ok []
  | d :: rest => do
    let n ← node src d
    return n :: (← nodeItems src rest)

/-- A node is a mapping with one field, its kind. -/
def node (src : Source) : Document → Decoded Node
  | .string s => do
    variant kinds s
    refuse (.wrongType .variantName "newtype variant")
  | .mapping [] stop => do
    let _ ← singleField src [] stop
    refuse (.wrongValue .mapping "map with a single key")
  | .mapping ((name, d) :: rest) stop => do
    let _ ← singleField src ((name, d) :: rest) stop
    variant kinds name
    let n ← if name = "group" then do
        let p ← parts src d
        Group.node <$> p.group
      else Node.condition <$> Condition.decode src d
    singleEnd src ((name, d) :: rest) stop
    return n
  | d => noChoice src d
where
  kinds : List (String × Unit) := [("condition", ()), ("group", ())]

end

def Group.decode (src : Source) (d : Document) : Decoded Group := parts src d >>= Parts.group

def Tree.decode (src : Source) (d : Document) : Decoded Tree := parts src d >>= Parts.tree

def Node.decode : Source → Document → Decoded Node := node

def Connective.decode (src : Source) (d : Document) : Decoded Connective :=
  Connective.ofJson <$> json src d

def Operator.decode (src : Source) (d : Document) : Decoded Operator := Operator.ofJson <$> json src d

end BucketQuery.Filter
