import BucketQuery.Filter.Decode
import BucketQuery.Proofs.Decode.Record
import BucketQuery.Proofs.Json.Fields

/-! The parts of a list of nodes, in whatever order they stand.

Fields are taken in the order they stand, and each part looks only at the values under its own name
(`partFields_iff`). -/
namespace BucketQuery.Filter

open Decode

/-- Takes the values under the name of a part in turn. -/
def takePart {α : Type} (name : String) (read : Document → Decoded α) :
    (met : Option α) → List Json → Decoded (Option α)
  | met, [] => .ok met
  | met, v :: rest => do
    once name met
    let a ← read (Document.ofJson v)
    takePart name read (some a) rest

section Take
variable {α β γ : Type} {name : String} {met : Option α}

/-- A part that was not met before is read, and what follows goes on from there. -/
theorem once_bind_iff {read : Decoded β} {next : β → Decoded γ} {c : γ} :
    (do once name met; let b ← read; next b) = .ok c ↔
      once name met = .ok () ∧ ∃ b, read = .ok b ∧ next b = .ok c := by
  constructor
  · intro h
    obtain ⟨⟨⟩, honce, h⟩ := ok_of_bind h
    exact ⟨honce, ok_of_bind h⟩
  · rintro ⟨honce, b, hb, h⟩
    rw [honce, hb]
    exact h

theorem takePart_cons_iff {read : Document → Decoded α} {v : Json} {rest : List Json} {x : Option α} :
    takePart name read met (v :: rest) = .ok x ↔
      once name met = .ok () ∧ ∃ a, read (Document.ofJson v) = .ok a ∧
        takePart name read (some a) rest = .ok x := by
  rw [takePart]
  exact once_bind_iff

theorem takePart_one_iff {read : Document → Decoded α} {v : Json} {x : Option α} :
    takePart name read none [v] = .ok x ↔ ∃ a, read (Document.ofJson v) = .ok a ∧ some a = x := by
  rw [takePart_cons_iff]
  constructor
  · rintro ⟨_, a, ha, h⟩
    exact ⟨a, ha, Except.ok.inj h⟩
  · rintro ⟨a, ha, rfl⟩
    exact ⟨rfl, a, ha, rfl⟩

theorem takePart_one {read : Document → Decoded α} {v : Json} {a : α}
    (h : read (Document.ofJson v) = .ok a) : takePart name read none [v] = .ok (some a) :=
  takePart_one_iff.mpr ⟨a, h, rfl⟩

/-- A part is met at most once, so what stands there is what was read. -/
theorem read_of_takePart {read : Document → Decoded α} {vs : List Json} {x : Option α}
    (h : takePart name read none vs = .ok x) {v : Json} (hv : v ∈ vs) :
    ∃ a, read (Document.ofJson v) = .ok a ∧ x = some a := by
  match vs with
  | [] => exact absurd hv List.not_mem_nil
  | [w] =>
    obtain ⟨a, ha, rfl⟩ := takePart_one_iff.mp h
    rw [List.mem_singleton] at hv
    subst hv
    exact ⟨a, ha, rfl⟩
  | w :: w' :: rest =>
    obtain ⟨_, a, _, h⟩ := takePart_cons_iff.mp h
    have honce := (takePart_cons_iff.mp h).1
    cases honce

end Take

/-- What is met of the parts after some fields, given what was met before them. -/
@[mk_iff]
structure Parts.Taken (src : Source) (fields : List (String × Json)) (before after : Parts) : Prop where
  joins : takePart "logicalOperator" (Connective.decode src) before.joins
    (Json.valuesOf "logicalOperator" fields) = .ok after.joins
  conditions : takePart "conditions" (optional (list (Condition.decode src))) before.conditions
    (Json.valuesOf "conditions" fields) = .ok after.conditions
  groups : takePart "groups" (Filter.groups src) before.groups
    (Json.valuesOf "groups" fields) = .ok after.groups
  children : takePart "children" (Filter.children src) before.children
    (Json.valuesOf "children" fields) = .ok after.children

-- One case for each name, and each part but the one named is as in the induction hypothesis.
theorem partFields_iff (src : Source) (fields : List (String × Json)) (before after : Parts) :
    partFields src before (Document.ofFields fields) = .ok after ↔
      Parts.Taken src fields before after := by
  induction fields generalizing before with
  | nil =>
    obtain ⟨joins, conditions, groups, children⟩ := before
    obtain ⟨joins', conditions', groups', children'⟩ := after
    simp only [Document.ofFields, partFields, Parts.taken_iff, Json.valuesOf, List.filter_nil,
      List.map_nil, takePart, Except.ok.injEq, Parts.mk.injEq]
  | cons f rest ih =>
    obtain ⟨name, v⟩ := f
    rw [Document.ofFields, partFields]
    split_ifs with hjoins hconditions hgroups hchildren
    · subst hjoins
      simp only [once_bind_iff, ih, Parts.taken_iff, Json.valuesOf_cons, takePart_cons_iff, reduceIte,
        String.reduceEq, Connective.decode, map_eq_ok_iff, exists_exists_and_eq_and]
      constructor
      · rintro ⟨honce, a, ha, h, hothers⟩
        exact ⟨⟨honce, a, ha, h⟩, hothers⟩
      · rintro ⟨⟨honce, a, ha, h⟩, hothers⟩
        exact ⟨honce, a, ha, h, hothers⟩
    · subst hconditions
      simp only [once_bind_iff, ih, Parts.taken_iff, Json.valuesOf_cons, takePart_cons_iff, reduceIte,
        String.reduceEq]
      constructor
      · rintro ⟨honce, a, ha, hj, h, hothers⟩
        exact ⟨hj, ⟨honce, a, ha, h⟩, hothers⟩
      · rintro ⟨hj, ⟨honce, a, ha, h⟩, hothers⟩
        exact ⟨honce, a, ha, hj, h, hothers⟩
    · subst hgroups
      simp only [once_bind_iff, ih, Parts.taken_iff, Json.valuesOf_cons, takePart_cons_iff, reduceIte,
        String.reduceEq]
      constructor
      · rintro ⟨honce, a, ha, hj, hc, h, hothers⟩
        exact ⟨hj, hc, ⟨honce, a, ha, h⟩, hothers⟩
      · rintro ⟨hj, hc, ⟨honce, a, ha, h⟩, hothers⟩
        exact ⟨honce, a, ha, hj, hc, h, hothers⟩
    · subst hchildren
      simp only [once_bind_iff, ih, Parts.taken_iff, Json.valuesOf_cons, takePart_cons_iff, reduceIte,
        String.reduceEq]
      constructor
      · rintro ⟨honce, a, ha, hj, hc, hg, h⟩
        exact ⟨hj, hc, hg, honce, a, ha, h⟩
      · rintro ⟨hj, hc, hg, honce, a, ha, h⟩
        exact ⟨honce, a, ha, hj, hc, hg, h⟩
    · have hignore : ignore (Document.ofJson v) = .ok () := by rw [ignore, Document.skip_ofJson]
      rw [hignore, Parts.taken_iff, Json.valuesOf_cons, Json.valuesOf_cons, Json.valuesOf_cons,
        Json.valuesOf_cons, if_neg hjoins, if_neg hconditions, if_neg hgroups, if_neg hchildren,
        ← Parts.taken_iff]
      exact ih before

/-! ### Lists -/

section Lists
variable {src : Source}

theorem groupItems_eq_each (ds : List Document) : groupItems src ds = each (Group.decode src) ds := by
  induction ds with
  | nil => rw [groupItems, each]
  | cons d rest ih =>
    rw [groupItems, each, ih]
    simp only [Group.decode, bind_assoc]

theorem nodeItems_eq_each (ds : List Document) : nodeItems src ds = each (node src) ds := by
  induction ds with
  | nil => rw [nodeItems, each]
  | cons d rest ih => rw [nodeItems, each, ih]

theorem conditions_array (vs : List Json) :
    optional (list (Condition.decode src)) (Document.ofJson (.array vs)) =
      some <$> each (Condition.decode src) (Document.ofItems vs) := by
  rw [Document.ofJson, Decode.optional, Document.isNull, list]
  · cases each (Condition.decode src) (Document.ofItems vs) <;> rfl
  all_goals simp

theorem groups_array (vs : List Json) :
    Filter.groups src (Document.ofJson (.array vs)) =
      some <$> each (Group.decode src) (Document.ofItems vs) := by
  rw [Document.ofJson, Filter.groups, groupItems_eq_each]
  cases each (Group.decode src) (Document.ofItems vs) <;> rfl

theorem children_array (vs : List Json) :
    Filter.children src (Document.ofJson (.array vs)) =
      some <$> each (node src) (Document.ofItems vs) := by
  rw [Document.ofJson, Filter.children, nodeItems_eq_each]
  cases each (node src) (Document.ofItems vs) <;> rfl

end Lists

/-! ### Objects and sequences -/

/-- The names of the parts, in the order in which a sequence has them. -/
def partNames : List String := ["logicalOperator", "conditions", "groups", "children"]

/-- The parts of a list of nodes under their names: its fields, or its items in their order. -/
def namedParts : Json → List (String × Json)
  | .object fields => fields
  | .array items => partNames.zip items
  | _ => []

theorem parts_object (src : Source) (fields : List (String × Json)) :
    parts src (Document.ofJson (.object fields)) = partFields src {} (Document.ofFields fields) := by
  rw [Document.ofJson, parts]
  cases partFields src {} (Document.ofFields fields) <;> rfl

theorem partItems_taken {src : Source} (items : List Json) {p : Parts}
    (h : partItems src none (Document.ofItems items) = .ok p) :
    Parts.Taken src (partNames.zip items) {} p := by
  match items with
  | [] =>
    rw [Document.ofItems, partItems] at h
    cases h
    exact ⟨rfl, rfl, rfl, rfl⟩
  | [a] =>
    simp only [Document.ofItems, partItems] at h
    obtain ⟨joins, hjoins, h⟩ := ok_of_bind h
    cases h
    exact ⟨takePart_one (map_ok _ hjoins), rfl, rfl, rfl⟩
  | [a, b] =>
    simp only [Document.ofItems, partItems] at h
    obtain ⟨joins, hjoins, h⟩ := ok_of_bind h
    obtain ⟨cs, hcs, h⟩ := ok_of_bind h
    cases h
    exact ⟨takePart_one (map_ok _ hjoins), takePart_one hcs, rfl, rfl⟩
  | [a, b, c] =>
    simp only [Document.ofItems, partItems] at h
    obtain ⟨joins, hjoins, h⟩ := ok_of_bind h
    obtain ⟨cs, hcs, h⟩ := ok_of_bind h
    obtain ⟨gs, hgs, h⟩ := ok_of_bind h
    cases h
    exact ⟨takePart_one (map_ok _ hjoins), takePart_one hcs, takePart_one hgs, rfl⟩
  | a :: b :: c :: d :: left =>
    simp only [Document.ofItems, partItems] at h
    obtain ⟨joins, hjoins, h⟩ := ok_of_bind h
    obtain ⟨cs, hcs, h⟩ := ok_of_bind h
    obtain ⟨gs, hgs, h⟩ := ok_of_bind h
    obtain ⟨ns, hns, h⟩ := ok_of_bind h
    obtain ⟨_, _, h⟩ := ok_of_bind h
    cases h
    exact ⟨takePart_one (map_ok _ hjoins), takePart_one hcs, takePart_one hgs, takePart_one hns⟩

/-- What is read of a list of nodes is what its named parts are. -/
theorem parts_taken {src : Source} {v : Json} {p : Parts} (h : parts src (Document.ofJson v) = .ok p) :
    Parts.Taken src (namedParts v) {} p := by
  cases v with
  | object fields =>
    rw [parts_object] at h
    exact (partFields_iff src fields {} p).mp h
  | array items =>
    rw [Document.ofJson, parts] at h
    split at h
    · cases h
    · exact partItems_taken items h
  | null | bool | number | string =>
    rw [Document.ofJson, parts.eq_def] at h
    exact absurd h (unfit_ne_ok _ _ _)

theorem Group.decode_object_iff {src : Source} {fields : List (String × Json)} {g : Group} :
    Group.decode src (Document.ofJson (.object fields)) = .ok g ↔
      ∃ p, Parts.Taken src fields {} p ∧ p.group = .ok g := by
  rw [Group.decode, bind_eq_ok_iff]
  simp only [parts_object, partFields_iff]

theorem Tree.decode_eq_map (src : Source) (d : Document) :
    Tree.decode src d = (fun g => ⟨g.children⟩) <$> Group.decode src d := by
  rw [Tree.decode, Group.decode]
  cases parts src d with
  | error f => rfl
  | ok p =>
    show Tree.mk <$> p.nodes = _ <$> Group.mk p.connective <$> p.nodes
    cases p.nodes <;> rfl

/-! ### Nodes -/

section Kinds
variable {src : Source}

theorem singleField_one (f : String × Document) : singleField src [f] none = .ok f := by
  cases src <;> rfl

theorem singleEnd_one (f : String × Document) : singleEnd src [f] none = .ok () := by
  cases src <;> rfl

theorem node_condition (d : Document) :
    node src (.mapping [("condition", d)] none) = Node.condition <$> Condition.decode src d := by
  rw [node, singleField_one, singleEnd_one]
  cases Condition.decode src d <;> rfl

theorem node_group (d : Document) :
    node src (.mapping [("group", d)] none) = Group.node <$> Group.decode src d := by
  rw [node, singleField_one, singleEnd_one, Group.decode]
  cases parts src d with
  | error f => rfl
  | ok p =>
    show (Group.node <$> p.group >>= fun n => .ok n) = Group.node <$> p.group
    cases p.group <;> rfl

end Kinds

end BucketQuery.Filter
