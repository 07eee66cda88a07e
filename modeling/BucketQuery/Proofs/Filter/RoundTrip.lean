import BucketQuery.Filter.Encode
import BucketQuery.Proofs.Filter.Parts
import BucketQuery.Proofs.Filter.WellFormed

/-! Filter trees read back.

A tree is written in one shape and may be read in two. A well-formed tree that is written is read as it
was, to any depth: a condition field by field, and a node under its kind (`Tree.decode_toJson`). -/
namespace BucketQuery.Filter

open Decode

/-! ### Conditions -/

theorem Connective.ofJson_toJson (c : Connective) : ofJson c.toJson = c := by
  cases c with
  | and => decide +kernel
  | or =>
    have hword : Text.sameLetters (Text.trim "OR") "or" = true := by
      show ((Text.trim "OR").map Char.toLower == "or".map Char.toLower) = true
      rw [beq_iff_eq, ← String.toList_inj, String.toList_map, String.toList_map, Text.trim,
        String.toList_ofList]
      decide
    rw [toJson, text, ofJson, if_pos hword]

namespace Condition

theorem setOperator_orNull (c : Condition) {op : Option Operator} (h : ∀ o ∈ op, o.Obtained) :
    c.setOperator (Json.orNull (op.map Operator.toJson)) = {c with operator := op} := by
  cases op with
  | none => rfl
  | some op =>
    show {c with operator := some (Operator.ofText op.text)} = _
    rw [(h op rfl).ofText_text]

theorem operator_isFinite (op : Option Operator) :
    (Json.orNull (op.map Operator.toJson)).isFinite = true := by
  cases op <;> rfl

/-- A condition is read back. -/
theorem decode_toJson {c : Condition} (h : c.WellFormed) :
    decode .value (Document.ofJson c.toJson) = .ok c := by
  obtain ⟨field, operator, value, joins, negated⟩ := c
  have hread : (record .value).readFields [] empty
      [("field", Document.ofJson (.string field)), ("isNot", Document.ofJson (.bool negated)),
        ("logicalOperator", Document.ofJson joins.toJson),
        ("operator", Document.ofJson (Json.orNull (operator.map Operator.toJson))),
        ("value", Document.ofJson value)] =
      .ok (["value", "operator", "logicalOperator", "isNot", "field"],
        ⟨field, operator, value, joins, negated⟩) := by
    refine (Record.readFields_cons rfl rfl (map_ok _ (json_ofJson rfl))).trans ?_
    refine (Record.readFields_cons rfl rfl (map_ok _ (json_ofJson rfl))).trans ?_
    refine (Record.readFields_cons rfl rfl (map_ok _ (json_ofJson rfl))).trans ?_
    refine (Record.readFields_cons rfl rfl (map_ok _ (json_ofJson (operator_isFinite operator)))).trans ?_
    refine (Record.readFields_cons rfl rfl (map_ok _ (json_ofJson h.value))).trans ?_
    rw [setOperator_orNull _ h.operator, Connective.ofJson_toJson]
    rfl
  exact Record.decode_mapping hread rfl

end Condition

/-! ### Trees -/

/-- The children of a group or a tree. -/
theorem children_toJson {ns : List Node}
    (h : nodeItems .value (Document.ofItems (nodesToJson ns)) = .ok ns) :
    Filter.children .value (Document.ofJson (.array (nodesToJson ns))) = .ok (some ns) := by
  rw [children_array, ← nodeItems_eq_each, h]
  rfl

mutual

/-- A node is read back, and so are all nodes in it. -/
theorem node_toJson : (n : Node) → n.WellFormed → node .value (Document.ofJson n.toJson) = .ok n
  | .condition c, h => by
    rw [Node.WellFormed] at h
    rw [Node.toJson, Document.ofJson, Document.ofFields, Document.ofFields, node_condition,
      Condition.decode_toJson h]
    rfl
  | .group joins children, h => by
    rw [Node.WellFormed] at h
    have hjoins : Connective.decode .value (Document.ofJson joins.toJson) = .ok joins :=
      (map_ok _ (json_ofJson rfl)).trans (congrArg Except.ok (Connective.ofJson_toJson joins))
    have hgroup : Group.decode .value (Document.ofJson (.object [
        ("children", .array (nodesToJson children)), ("logicalOperator", joins.toJson)])) =
        .ok ⟨joins, children⟩ :=
      Group.decode_object_iff.mpr ⟨{joins := some joins, children := some (some children)},
        ⟨takePart_one hjoins, rfl, rfl, takePart_one (children_toJson (nodeItems_toJson children h))⟩, rfl⟩
    rw [Node.toJson, Document.ofJson, Document.ofFields, Document.ofFields, node_group, hgroup]
    rfl

theorem nodeItems_toJson :
    (ns : List Node) → Node.AllWellFormed ns →
      nodeItems .value (Document.ofItems (nodesToJson ns)) = .ok ns
  | [], _ => by rw [nodesToJson, Document.ofItems, nodeItems]
  | n :: rest, h => by
    rw [Node.AllWellFormed] at h
    rw [nodesToJson, Document.ofItems, nodeItems, node_toJson n h.1, nodeItems_toJson rest h.2]
    rfl

end

mutual

theorem node_toJson_isFinite : (n : Node) → n.WellFormed → n.toJson.isFinite = true
  | .condition c, h => by
    rw [Node.WellFormed] at h
    have hoperator := Condition.operator_isFinite c.operator
    simp only [Node.toJson, Condition.toJson, Connective.toJson, Json.isFinite, Json.fieldsFinite,
      hoperator, h.value, Bool.and_self]
  | .group joins children, h => by
    rw [Node.WellFormed] at h
    simp only [Node.toJson, Connective.toJson, Json.isFinite, Json.fieldsFinite,
      nodesToJson_itemsFinite children h, Bool.and_self]

theorem nodesToJson_itemsFinite :
    (ns : List Node) → Node.AllWellFormed ns → Json.itemsFinite (nodesToJson ns) = true
  | [], _ => by rw [nodesToJson, Json.itemsFinite]
  | n :: rest, h => by
    rw [Node.AllWellFormed] at h
    rw [nodesToJson, Json.itemsFinite, node_toJson_isFinite n h.1, nodesToJson_itemsFinite rest h.2,
      Bool.and_self]

end

theorem Tree.toJson_isFinite {t : Tree} (h : t.WellFormed) : t.toJson.isFinite = true := by
  simp only [toJson, Json.isFinite, Json.fieldsFinite, nodesToJson_itemsFinite t.children h,
    Bool.and_self]

/-- A filter tree is read back. -/
theorem Tree.decode_toJson {t : Tree} (h : t.WellFormed) :
    decode .value (Document.ofJson t.toJson) = .ok t := by
  have hgroup : Group.decode .value (Document.ofJson t.toJson) = .ok ⟨.and, t.children⟩ :=
    Group.decode_object_iff.mpr ⟨{children := some (some t.children)},
      ⟨rfl, rfl, rfl, takePart_one (children_toJson (nodeItems_toJson t.children h))⟩, rfl⟩
  rw [Tree.decode_eq_map, hgroup]
  rfl

end BucketQuery.Filter
