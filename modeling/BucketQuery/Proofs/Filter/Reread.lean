import BucketQuery.Proofs.Filter.RoundTrip
import BucketQuery.Proofs.Json.Held

/-! Filter trees read back from their text.

Only the values of conditions are read otherwise than they were written, so the tree that is read is the tree
with its values read back (`Node.toJson_reread`). -/
namespace BucketQuery.Filter

open Decode

/-! ### The numbers of a tree -/

theorem Condition.value_held {src : Source} {d : Document} (hd : d.Held) {c : Condition}
    (h : decode src d = .ok c) : c.value.Held := by
  have hempty : empty.value.Held := by
    rw [empty, Json.Held]
    trivial
  refine Record.decode_keeps (P := fun c => c.value.Held) ?_ hempty h
  intro field hfield e he a b ha hread
  simp only [record, List.mem_cons, List.not_mem_nil, or_false] at hfield
  rcases hfield with rfl | rfl | rfl | rfl | rfl
  all_goals obtain ⟨v, hv, rfl⟩ := ok_of_map hread
  · cases v <;> exact ha
  · cases v <;> exact ha
  · exact Document.toJson_held e (Document.inner_held hd e he) (toJson_of_json hv)
  · exact ha
  · cases v <;> exact ha

/-- The values of the conditions are such as texts give. -/
def Tree.Held (t : Tree) : Prop := t.Every fun c => c.value.Held

theorem Tree.held_of_decode {src : Source} {d : Document} (hd : d.Held) {t : Tree} (h : decode src d = .ok t) :
    t.Held :=
  Tree.every_of_decode (D := Document.Held) (fun _ => Document.inner_held)
    (fun _ hd _ => Condition.value_held hd) hd h

theorem Condition.streamed_held {c : Condition} (h : c.value.Held) : c.streamed.Held := by
  have hoperator : (Json.orNull (c.operator.map Operator.toJson)).Held := by
    cases c.operator <;> exact trivial
  simp only [streamed, Connective.toJson, Json.Held, Json.FieldsHeld, true_and, and_true]
  exact ⟨hoperator, h⟩

mutual

theorem Node.streamed_held : (n : Node) → n.Every (fun c => c.value.Held) → n.streamed.Held
  | .condition c, h => by
    rw [Node.Every] at h
    simp only [Node.streamed, Json.Held, Json.FieldsHeld, and_true]
    exact Condition.streamed_held h
  | .group joins children, h => by
    rw [Node.Every] at h
    simp only [Node.streamed, Connective.toJson, Json.Held, Json.FieldsHeld, true_and, and_true]
    exact nodesStreamed_held children h

theorem nodesStreamed_held : (ns : List Node) → Node.EveryIn (fun c => c.value.Held) ns →
    Json.ItemsHeld (nodesStreamed ns)
  | [], _ => by
    rw [nodesStreamed, Json.ItemsHeld]
    trivial
  | n :: rest, h => by
    rw [Node.EveryIn] at h
    rw [nodesStreamed, Json.ItemsHeld]
    exact ⟨Node.streamed_held n h.1, nodesStreamed_held rest h.2⟩

end

theorem Tree.streamed_held {t : Tree} (h : t.Held) : t.streamed.Held := by
  simp only [streamed, Json.Held, Json.FieldsHeld, and_true]
  exact nodesStreamed_held t.children h

/-! ### What is read back -/

/-- The condition with its value read back. -/
def Condition.reread (c : Condition) : Condition := {c with value := c.value.reread}

mutual

def Node.reread : Node → Node
  | .condition c => .condition c.reread
  | .group joins children => .group joins (Node.rereadAll children)

def Node.rereadAll : List Node → List Node
  | [] => []
  | n :: rest => n.reread :: Node.rereadAll rest

end

def Tree.reread (t : Tree) : Tree := ⟨Node.rereadAll t.children⟩

theorem Condition.streamed_reread (c : Condition) : c.streamed.reread = c.reread.toJson := by
  have hoperator : (Json.orNull (c.operator.map Operator.toJson)).reread =
      Json.orNull (c.operator.map Operator.toJson) := by
    cases c.operator <;> rfl
  simp only [streamed, Connective.toJson, Json.reread, Json.rereadFields, hoperator]
  rfl

mutual

/-- What is read where a tree was streamed is the value of the tree with its values read back: reading puts
the fields into the order of their names. -/
theorem Node.streamed_reread : (n : Node) → n.streamed.reread = n.reread.toJson
  | .condition c => by
    simp only [Node.reread, Node.toJson, Node.streamed, Json.reread, Json.rereadFields, Condition.streamed_reread]
    rfl
  | .group joins children => by
    simp only [Node.reread, Node.toJson, Node.streamed, Connective.toJson, Json.reread, Json.rereadFields,
      nodesStreamed_reread children]
    rfl

theorem nodesStreamed_reread : (ns : List Node) →
    Json.rereadItems (nodesStreamed ns) = nodesToJson (Node.rereadAll ns)
  | [] => by rw [Node.rereadAll, nodesToJson, nodesStreamed, Json.rereadItems]
  | n :: rest => by
    rw [Node.rereadAll, nodesToJson, nodesStreamed, Json.rereadItems, Node.streamed_reread n,
      nodesStreamed_reread rest]

end

theorem Tree.streamed_reread (t : Tree) : t.streamed.reread = t.reread.toJson := by
  simp only [streamed, toJson, reread, Json.reread, Json.rereadFields, nodesStreamed_reread]
  rfl

mutual

theorem Node.reread_wellFormed : (n : Node) → n.WellFormed → n.reread.WellFormed
  | .condition c, h => by
    rw [Node.WellFormed] at h
    rw [Node.reread, Node.WellFormed]
    exact ⟨h.operator, Json.reread_isFinite c.value⟩
  | .group joins children, h => by
    rw [Node.WellFormed] at h
    rw [Node.reread, Node.WellFormed]
    exact Node.rereadAll_wellFormed children h

theorem Node.rereadAll_wellFormed : (ns : List Node) → Node.AllWellFormed ns →
    Node.AllWellFormed (Node.rereadAll ns)
  | [], _ => by
    rw [Node.rereadAll, Node.AllWellFormed]
    trivial
  | n :: rest, h => by
    rw [Node.AllWellFormed] at h
    rw [Node.rereadAll, Node.AllWellFormed]
    exact ⟨Node.reread_wellFormed n h.1, Node.rereadAll_wellFormed rest h.2⟩

end

theorem Tree.reread_wellFormed {t : Tree} (h : t.WellFormed) : t.reread.WellFormed :=
  Node.rereadAll_wellFormed t.children h

end BucketQuery.Filter
