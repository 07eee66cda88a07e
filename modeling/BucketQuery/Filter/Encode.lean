import BucketQuery.Filter.Tree

/-!
Filters as JSON values. A tree is written in its one native shape: a list of children, each a
condition or a group under its own key. A value has its fields in the order of their names; what is
streamed to a text has them in the order they are declared. -/
namespace BucketQuery.Filter

def Connective.toJson (c : Connective) : Json := .string c.text

def Operator.toJson (op : Operator) : Json := .string op.text

def Condition.toJson (c : Condition) : Json := .object [
  ("field", .string c.field),
  ("isNot", .bool c.negated),
  ("logicalOperator", c.joins.toJson),
  ("operator", Json.orNull (c.operator.map Operator.toJson)),
  ("value", c.value)]

mutual

def Node.toJson : Node → Json
  | .condition c => .object [("condition", c.toJson)]
  | .group joins children =>
    .object [("group", .object [("children", .array (nodesToJson children)),
      ("logicalOperator", joins.toJson)])]

def nodesToJson : List Node → List Json
  | [] => []
  | n :: rest => n.toJson :: nodesToJson rest

end

def Group.toJson (g : Group) : Json :=
  .object [("children", .array (nodesToJson g.children)), ("logicalOperator", g.joins.toJson)]

def Tree.toJson (t : Tree) : Json := .object [("children", .array (nodesToJson t.children))]

/-! ### Streamed to a text -/

def Condition.streamed (c : Condition) : Json := .object [
  ("field", .string c.field),
  ("operator", Json.orNull (c.operator.map Operator.toJson)),
  ("value", c.value),
  ("logicalOperator", c.joins.toJson),
  ("isNot", .bool c.negated)]

mutual

def Node.streamed : Node → Json
  | .condition c => .object [("condition", c.streamed)]
  | .group joins children =>
    .object [("group", .object [("logicalOperator", joins.toJson),
      ("children", .array (nodesStreamed children))])]

def nodesStreamed : List Node → List Json
  | [] => []
  | n :: rest => n.streamed :: nodesStreamed rest

end

def Tree.streamed (t : Tree) : Json := .object [("children", .array (nodesStreamed t.children))]

end BucketQuery.Filter
