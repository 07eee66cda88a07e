import BucketQuery.Proofs.Filter.Parts

/-! The two shapes of a list of nodes.

The editor writes the conditions of a list and then its groups; stored lists have nodes of either kind in
one list of children. `toNative` writes the first shape as the second, at every level, and main statement
`shapes_agree` says that both are read as the same tree, or neither is read, and that a document which
has both shapes in one list, at whatever level, is not read at all. -/
namespace BucketQuery.Filter

open Decode
open Json (items valuesOf)

/-! ### Shapes -/

/-- The items of the lists under a name. -/
def itemsUnder (name : String) (fields : List (String × Json)) : List Json :=
  (valuesOf name fields).flatMap items

/-- A node of a kind. -/
def nodeOf (kind : String) (v : Json) : Json := .object [(kind, v)]

def isShapeName (name : String) : Bool := name = "conditions" || name = "groups"

mutual

/-- A list in the editor's shape as one of children: a node for each condition and then one for each
group. Its other fields stay. -/
def toNative : Json → Json
  | .object fields => .object (Json.putField "children"
      (.array ((itemsUnder "conditions" fields).map (nodeOf "condition") ++ groupNodes fields))
      (fields.filter fun f => !isShapeName f.1))
  | v => v

def groupNodes : List (String × Json) → List Json
  | [] => []
  | (name, v) :: rest => if name = "groups" then itemNodes v ++ groupNodes rest else groupNodes rest

def itemNodes : Json → List Json
  | .array gs => nodesOf gs
  | _ => []

def nodesOf : List Json → List Json
  | [] => []
  | g :: rest => nodeOf "group" (toNative g) :: nodesOf rest

end

theorem nodesOf_eq_map (gs : List Json) : nodesOf gs = gs.map fun g => nodeOf "group" (toNative g) := by
  induction gs with
  | nil => rw [nodesOf, List.map_nil]
  | cons g rest ih => rw [nodesOf, ih, List.map_cons]

theorem itemNodes_eq_map (v : Json) :
    itemNodes v = (items v).map fun g => nodeOf "group" (toNative g) := by
  cases v with
  | array gs => rw [itemNodes, items, nodesOf_eq_map]
  | null | bool | number | string | object => rw [itemNodes, items] <;> simp

theorem groupNodes_eq_map (fields : List (String × Json)) :
    groupNodes fields = (itemsUnder "groups" fields).map fun g => nodeOf "group" (toNative g) := by
  induction fields with
  | nil => rw [groupNodes]; rfl
  | cons f rest ih =>
    obtain ⟨name, v⟩ := f
    rw [groupNodes, itemsUnder, Json.valuesOf_cons]
    split
    · rw [ih, itemNodes_eq_map, List.flatMap_cons, List.map_append, itemsUnder]
    · exact ih

/-- A list of nodes as the editor writes it: under distinct names, with conditions and groups that may be
null, and no children; and its groups are written so too. -/
inductive EditorShape : Json → Prop
  | object {fields : List (String × Json)} (distinct : (fields.map Prod.fst).Nodup)
    (noChildren : "children" ∉ fields.map Prod.fst)
    (lists : ∀ f ∈ fields, isShapeName f.1 = true → f.2 = .null ∨ ∃ vs, f.2 = .array vs)
    (inner : ∀ gs, ("groups", .array gs) ∈ fields → ∀ inside, .object inside ∈ gs →
      EditorShape (.object inside)) : EditorShape (.object fields)

/-- Somewhere in a list of nodes there is one with children and with conditions or groups as well. -/
inductive MixedShapes : Json → Prop
  | here {v children other : Json} {name : String} (native : ("children", children) ∈ namedParts v)
    (given : children ≠ .null) (editor : (name, other) ∈ namedParts v) (shape : isShapeName name = true)
    (otherGiven : other ≠ .null) : MixedShapes v
  | inGroups {v g : Json} {gs : List Json} (groups : ("groups", .array gs) ∈ namedParts v) (mem : g ∈ gs)
    (mixed : MixedShapes g) : MixedShapes v
  | inChildren {v g : Json} {ns : List Json} {fields : List (String × Json)}
    (children : ("children", .array ns) ∈ namedParts v) (mem : .object fields ∈ ns)
    (group : ("group", g) ∈ fields) (mixed : MixedShapes g) : MixedShapes v

/-! ### One list -/

section List
variable {src : Source} {fields : List (String × Json)} {g : Group}

/-- A part that is absent, null or a list has the items that are read of it, none where there is no list. -/
theorem takePart_items_iff {α : Type} {name : String} (read : Document → Decoded (Option (List α)))
    {readItem : Document → Decoded α} (hnull : read .null = .ok none)
    (harray : ∀ vs, read (Document.ofJson (.array vs)) = some <$> each readItem (Document.ofItems vs))
    (hlist : valuesOf name fields = [] ∨ ∃ v, valuesOf name fields = [v] ∧
      (v = .null ∨ ∃ vs, v = .array vs)) (as : List α) :
    (∃ x, takePart name read none (valuesOf name fields) = .ok x ∧ x.join.getD [] = as) ↔
      each readItem (Document.ofItems (itemsUnder name fields)) = .ok as := by
  unfold itemsUnder
  obtain hnone | ⟨v, hone, rfl | ⟨vs, rfl⟩⟩ := hlist
  · rw [hnone]
    constructor
    · rintro ⟨x, hx, rfl⟩
      cases hx
      rfl
    · intro h
      cases h
      exact ⟨none, rfl, rfl⟩
  · rw [hone]
    simp only [takePart_one_iff, Document.ofJson, hnull]
    constructor
    · rintro ⟨x, ⟨a, ha, rfl⟩, rfl⟩
      cases ha
      rfl
    · intro h
      cases h
      exact ⟨_, ⟨none, rfl, rfl⟩, rfl⟩
  · rw [hone]
    simp only [takePart_one_iff, harray, map_eq_ok_iff, List.flatMap_cons, List.flatMap_nil,
      List.append_nil, items]
    constructor
    · rintro ⟨x, ⟨a, ⟨bs, hbs, rfl⟩, rfl⟩, rfl⟩
      exact hbs
    · intro h
      exact ⟨_, ⟨_, ⟨as, h, rfl⟩, rfl⟩, rfl⟩

/-- A list without children is read as its conditions and its groups. -/
theorem decode_lists_iff (hchildren : valuesOf "children" fields = [])
    (hlist : ∀ name, isShapeName name = true → valuesOf name fields = [] ∨
      ∃ v, valuesOf name fields = [v] ∧ (v = .null ∨ ∃ vs, v = .array vs)) :
    Group.decode src (Document.ofJson (.object fields)) = .ok g ↔
      ∃ joins cs gs,
        takePart "logicalOperator" (Connective.decode src) none (valuesOf "logicalOperator" fields) =
          .ok joins ∧
        each (Condition.decode src) (Document.ofItems (itemsUnder "conditions" fields)) = .ok cs ∧
        each (Group.decode src) (Document.ofItems (itemsUnder "groups" fields)) = .ok gs ∧
        (⟨joins.getD .and, (Tree.ofParts cs gs).children⟩ : Group) = g := by
  rw [Group.decode_object_iff]
  simp only [← takePart_items_iff _ rfl conditions_array (hlist "conditions" rfl),
    ← takePart_items_iff (Filter.groups src) rfl groups_array (hlist "groups" rfl)]
  constructor
  · rintro ⟨⟨joins, conditions, groups, children⟩, ⟨hj, hc, hg, hk⟩, h⟩
    rw [hchildren] at hk
    cases hk
    cases h
    exact ⟨joins, _, _, hj, ⟨conditions, hc, rfl⟩, ⟨groups, hg, rfl⟩, rfl⟩
  · rintro ⟨joins, _, _, hj, ⟨conditions, hc, rfl⟩, ⟨groups, hg, rfl⟩, rfl⟩
    exact ⟨⟨joins, conditions, groups, none⟩, ⟨hj, hc, hg, by rw [hchildren]; rfl⟩, rfl⟩

/-- A list of children alone is read as these. -/
theorem decode_children_iff {nodes : List Json} (hchildren : valuesOf "children" fields = [.array nodes])
    (hlist : ∀ name, isShapeName name = true → valuesOf name fields = []) :
    Group.decode src (Document.ofJson (.object fields)) = .ok g ↔
      ∃ joins ns,
        takePart "logicalOperator" (Connective.decode src) none (valuesOf "logicalOperator" fields) =
          .ok joins ∧
        each (node src) (Document.ofItems nodes) = .ok ns ∧ (⟨joins.getD .and, ns⟩ : Group) = g := by
  rw [Group.decode_object_iff]
  constructor
  · rintro ⟨⟨joins, conditions, groups, children⟩, ⟨hj, hc, hg, hk⟩, h⟩
    rw [hlist "conditions" rfl] at hc
    rw [hlist "groups" rfl] at hg
    cases hc
    cases hg
    rw [hchildren, takePart_one_iff] at hk
    obtain ⟨a, ha, rfl⟩ := hk
    rw [children_array, map_eq_ok_iff] at ha
    obtain ⟨ns, hns, rfl⟩ := ha
    cases h
    exact ⟨joins, ns, hj, hns, rfl⟩
  · rintro ⟨joins, ns, hj, hns, rfl⟩
    refine ⟨⟨joins, none, none, some (some ns)⟩, ⟨hj, ?_, ?_, ?_⟩, rfl⟩
    · rw [hlist "conditions" rfl]
      rfl
    · rw [hlist "groups" rfl]
      rfl
    · rw [hchildren]
      exact takePart_one ((children_array nodes).trans (map_ok _ hns))

end List

/-! ### Both shapes -/

section Native
variable {src : Source}

theorem each_conditionNodes_iff (cs : List Json) (ns : List Node) :
    each (node src) (Document.ofItems (cs.map (nodeOf "condition"))) = .ok ns ↔
      ∃ as, each (Condition.decode src) (Document.ofItems cs) = .ok as ∧ as.map .condition = ns := by
  rw [Document.ofItems_eq_map, List.map_map, Document.ofItems_eq_map]
  refine each_map_iff fun c _ n => ?_
  rw [Function.comp, nodeOf, Document.ofJson, Document.ofFields, Document.ofFields, node_condition,
    map_eq_ok_iff]

theorem each_groupNodes_iff {gs : List Json} {native : Json → Json}
    (hnative : ∀ g ∈ gs, ∀ a, Group.decode src (Document.ofJson (native g)) = .ok a ↔
      Group.decode src (Document.ofJson g) = .ok a) (ns : List Node) :
    each (node src) (Document.ofItems (gs.map fun g => nodeOf "group" (native g))) = .ok ns ↔
      ∃ as, each (Group.decode src) (Document.ofItems gs) = .ok as ∧ as.map Group.node = ns := by
  rw [Document.ofItems_eq_map, List.map_map, Document.ofItems_eq_map]
  refine each_map_iff fun g hg n => ?_
  rw [Function.comp, nodeOf, Document.ofJson, Document.ofFields, Document.ofFields, node_group,
    map_eq_ok_iff]
  simp only [hnative g hg]

/-- The values of a list that has distinct names and is in the editor's shape. -/
theorem valuesOf_shape {fields : List (String × Json)} (distinct : (fields.map Prod.fst).Nodup)
    (lists : ∀ f ∈ fields, isShapeName f.1 = true → f.2 = .null ∨ ∃ vs, f.2 = .array vs) (name : String)
    (hname : isShapeName name = true) : valuesOf name fields = [] ∨
      ∃ v, valuesOf name fields = [v] ∧ (v = .null ∨ ∃ vs, v = .array vs) := by
  refine (Json.valuesOf_of_nodup name distinct).imp_right ?_
  rintro ⟨v, hv⟩
  have hmem : (name, v) ∈ fields := Json.mem_valuesOf.mp (hv ▸ List.mem_singleton_self v)
  exact ⟨v, hv, lists _ hmem hname⟩

/-- The one shape is read as a group exactly where the other is, and as the same. -/
theorem EditorShape.decode_toNative {v : Json} (h : EditorShape v) (g : Group) :
    Group.decode src (Document.ofJson (toNative v)) = .ok g ↔
      Group.decode src (Document.ofJson v) = .ok g := by
  induction h generalizing g with
  | @object fields distinct noChildren lists inner ih =>
    have hother (name : String) (h : isShapeName name = false) :
        valuesOf name (fields.filter fun f => !isShapeName f.1) = valuesOf name fields :=
      Json.valuesOf_filter (p := fun n => !isShapeName n) (by rw [h]; rfl) fields
    have hchildren : valuesOf "children" fields = [] := Json.valuesOf_eq_nil_iff.mpr noChildren
    -- A group that is no object is written as it is.
    have hgroups : ∀ g ∈ itemsUnder "groups" fields, ∀ a,
        Group.decode src (Document.ofJson (toNative g)) = .ok a ↔
          Group.decode src (Document.ofJson g) = .ok a := by
      intro g hg a
      obtain ⟨x, hx, hg⟩ := List.mem_flatMap.mp hg
      cases g with
      | object inside =>
        cases x with
        | array gs => exact ih gs (Json.mem_valuesOf.mp hx) inside hg a
        | null | bool | number | string | object => exact absurd hg List.not_mem_nil
      | null | bool | number | string | array => rw [toNative]; simp
    rw [toNative, groupNodes_eq_map, decode_children_iff (Json.valuesOf_putField ?_) ?_,
      decode_lists_iff hchildren (valuesOf_shape distinct lists)]
    · rw [Json.valuesOf_putField_ne (by decide), hother _ rfl, Document.ofItems_eq_map, List.map_append,
        ← Document.ofItems_eq_map, ← Document.ofItems_eq_map]
      simp only [each_append_iff, each_conditionNodes_iff, each_groupNodes_iff hgroups]
      constructor
      · rintro ⟨joins, _, hj, ⟨_, _, ⟨cs, hc, rfl⟩, ⟨gs, hg, rfl⟩, rfl⟩, rfl⟩
        exact ⟨joins, cs, gs, hj, hc, hg, rfl⟩
      · rintro ⟨joins, cs, gs, hj, hc, hg, rfl⟩
        exact ⟨joins, _, hj, ⟨_, _, ⟨cs, hc, rfl⟩, ⟨gs, hg, rfl⟩, rfl⟩, rfl⟩
    · rw [hother _ rfl, hchildren]
    · intro name hname
      have hne : name ≠ "children" := by
        rintro rfl
        cases hname
      rw [Json.valuesOf_putField_ne hne]
      exact Json.valuesOf_filter_eq_nil (p := fun n => !isShapeName n) (by rw [hname]; rfl) fields

end Native

/-! ### Mixed shapes -/

section Mixed
variable {src : Source} {v : Json} {p : Parts}

theorem conditions_of_not_null (hv : v ≠ .null) {x : Option (List Condition)}
    (h : optional (list (Condition.decode src)) (Document.ofJson v) = .ok x) : ∃ cs, x = some cs := by
  rw [Decode.optional, Document.ofJson_isNull hv] at h
  obtain ⟨cs, _, rfl⟩ := ok_of_map h
  exact ⟨cs, rfl⟩

theorem groups_of_not_null (hv : v ≠ .null) {x : Option (List Group)}
    (h : Filter.groups src (Document.ofJson v) = .ok x) : ∃ gs, x = some gs := by
  cases v with
  | null => exact absurd rfl hv
  | array vs =>
    rw [groups_array] at h
    obtain ⟨gs, _, rfl⟩ := ok_of_map h
    exact ⟨gs, rfl⟩
  | bool | number | string | object =>
    rw [Document.ofJson, groups.eq_def] at h
    cases h

theorem children_of_not_null (hv : v ≠ .null) {x : Option (List Node)}
    (h : Filter.children src (Document.ofJson v) = .ok x) : ∃ ns, x = some ns := by
  cases v with
  | null => exact absurd rfl hv
  | array vs =>
    rw [children_array] at h
    obtain ⟨ns, _, rfl⟩ := ok_of_map h
    exact ⟨ns, rfl⟩
  | bool | number | string | object =>
    rw [Document.ofJson, children.eq_def] at h
    cases h

/-- Children next to conditions or groups are no list of nodes. -/
theorem Parts.group_ne_ok {ns : List Node} (hchildren : p.children = some (some ns))
    (hother : (∃ cs, p.conditions = some (some cs)) ∨ ∃ gs, p.groups = some (some gs)) (g : Group) :
    p.group ≠ .ok g := by
  have hnodes : p.nodes = refuse .bothShapes := by
    unfold nodes
    rw [hchildren]
    obtain ⟨cs, hc⟩ | ⟨gs, hg⟩ := hother
    · rw [hc]
      rfl
    · rw [hg]
      cases p.conditions.join <;> rfl
  rw [group, hnodes]
  intro h
  cases h

/-- A node has one field. -/
theorem node_object_group {fields : List (String × Json)} {g : Json} (hg : ("group", g) ∈ fields)
    {n : Node} (h : node src (Document.ofJson (.object fields)) = .ok n) :
    ∃ a, Group.decode src (Document.ofJson g) = .ok a := by
  rw [Document.ofJson] at h
  match fields with
  | [] => exact absurd hg List.not_mem_nil
  | [f] =>
    rw [List.mem_singleton] at hg
    subst hg
    rw [Document.ofFields, Document.ofFields, node_group] at h
    obtain ⟨a, ha, _⟩ := ok_of_map h
    exact ⟨a, ha⟩
  | (name, w) :: (name', w') :: rest =>
    rw [Document.ofFields, Document.ofFields, node] at h
    obtain ⟨_, hfield, h⟩ := ok_of_bind h
    cases src with
    | value | yaml | toml => cases hfield
    | json =>
      obtain ⟨_, _, h⟩ := ok_of_bind h
      dsimp only at h
      split at h
      · obtain ⟨_, _, h⟩ := ok_of_bind h
        obtain ⟨_, _, h⟩ := ok_of_bind h
        cases h
      · obtain ⟨_, _, h⟩ := ok_of_bind h
        cases h

theorem MixedShapes.decode_ne_ok (h : MixedShapes v) (g : Group) :
    Group.decode src (Document.ofJson v) ≠ .ok g := by
  intro hg
  induction h generalizing g with
  | @here v children other name native given editor shape otherGiven =>
    obtain ⟨p, hp, hgroup⟩ := ok_of_bind hg
    obtain ⟨-, hconditions, hgroups, hchildren⟩ := parts_taken hp
    obtain ⟨x, hx, hnative⟩ := read_of_takePart hchildren (Json.mem_valuesOf.mpr native)
    obtain ⟨ns, rfl⟩ := children_of_not_null given hx
    refine Parts.group_ne_ok hnative ?_ g hgroup
    rw [isShapeName, Bool.or_eq_true, decide_eq_true_eq, decide_eq_true_eq] at shape
    rcases shape with rfl | rfl
    · obtain ⟨x, hx, hother⟩ := read_of_takePart hconditions (Json.mem_valuesOf.mpr editor)
      obtain ⟨cs, rfl⟩ := conditions_of_not_null otherGiven hx
      exact .inl ⟨cs, hother⟩
    · obtain ⟨x, hx, hother⟩ := read_of_takePart hgroups (Json.mem_valuesOf.mpr editor)
      obtain ⟨gs, rfl⟩ := groups_of_not_null otherGiven hx
      exact .inr ⟨gs, hother⟩
  | inGroups groups mem mixed ih =>
    obtain ⟨p, hp, -⟩ := ok_of_bind hg
    obtain ⟨x, hx, -⟩ := read_of_takePart (parts_taken hp).groups (Json.mem_valuesOf.mpr groups)
    rw [groups_array, Document.ofItems_eq_map] at hx
    obtain ⟨gs, hgs, -⟩ := ok_of_map hx
    obtain ⟨a, ha⟩ := read_of_each hgs _ (List.mem_map_of_mem mem)
    exact ih a ha
  | inChildren children mem group mixed ih =>
    obtain ⟨p, hp, -⟩ := ok_of_bind hg
    obtain ⟨x, hx, -⟩ := read_of_takePart (parts_taken hp).children (Json.mem_valuesOf.mpr children)
    rw [children_array, Document.ofItems_eq_map] at hx
    obtain ⟨ns, hns, -⟩ := ok_of_map hx
    obtain ⟨n, hn⟩ := read_of_each hns _ (List.mem_map_of_mem mem)
    obtain ⟨a, ha⟩ := node_object_group group hn
    exact ih a ha

end Mixed

/-- **The two shapes mean the same tree.** What the editor writes and its native form are read, as a tree
or as a group, as the same, or neither is read; and nothing is read of a document with both shapes in one
list, at whatever level. -/
theorem shapes_agree (src : Source) :
    (∀ v, EditorShape v →
      (∀ t, Tree.decode src (Document.ofJson (toNative v)) = .ok t ↔
        Tree.decode src (Document.ofJson v) = .ok t) ∧
      ∀ g, Group.decode src (Document.ofJson (toNative v)) = .ok g ↔
        Group.decode src (Document.ofJson v) = .ok g) ∧
    ∀ v, MixedShapes v →
      (∃ f, Tree.decode src (Document.ofJson v) = .error f) ∧
      ∃ f, Group.decode src (Document.ofJson v) = .error f := by
  refine ⟨fun v h => ⟨fun t => ?_, h.decode_toNative⟩, fun v h => ?_⟩
  · simp only [Tree.decode_eq_map, map_eq_ok_iff, h.decode_toNative]
  · have hfails : ∃ f, Group.decode src (Document.ofJson v) = .error f := by
      cases hg : Group.decode src (Document.ofJson v) with
      | error f => exact ⟨f, rfl⟩
      | ok g => exact absurd hg (h.decode_ne_ok g)
    obtain ⟨f, hf⟩ := hfails
    exact ⟨⟨f, by rw [Tree.decode_eq_map, hf]; rfl⟩, f, hf⟩

/-- The calls of an agent, or of a queue that is yet to be named. -/
def innerCalls : Json := .object [
  ("conditions", .array [
    .object [("field", .string "agent"), ("operator", .string "="), ("value", .string "ann")],
    .object [("field", .string "queue"), ("logicalOperator", .string "or")]]),
  ("groups", .null),
  ("logicalOperator", .string "or")]

/-- What was answered, or those calls; with a note. -/
def editorCalls : Json := .object [
  ("conditions", .array [.object [("field", .string "answered"), ("operator", .string "is true")]]),
  ("groups", .array [innerCalls]),
  ("note", .string "as of may")]

def nativeCalls : Json := .object [
  ("children", .array [
    .object [("condition", .object [("field", .string "answered"), ("operator", .string "is true")])],
    .object [("group", .object [
      ("children", .array [
        .object [("condition", .object
          [("field", .string "agent"), ("operator", .string "="), ("value", .string "ann")])],
        .object [("condition", .object [("field", .string "queue"), ("logicalOperator", .string "or")])]]),
      ("logicalOperator", .string "or")])]]),
  ("note", .string "as of may")]

/-- A group below the native shape has both shapes. -/
def mixedCalls : Json := .object [("children", .array [
  .object [("group", .object [("children", .array []), ("conditions", .array [])])]])]

theorem calls_shapes_agree :
    toNative editorCalls = nativeCalls ∧
      (∃ t, Tree.decode .value (Document.ofJson editorCalls) = .ok t ∧
        Tree.decode .value (Document.ofJson nativeCalls) = .ok t) ∧
      ∃ f, Tree.decode .value (Document.ofJson mixedCalls) = .error f := by
  have hinner : EditorShape innerCalls := by
    refine .object (by decide) (by decide) ?_ ?_
    · simp [isShapeName]
    · simp
  have heditor : EditorShape editorCalls := by
    refine .object (by decide) (by decide) ?_ ?_
    · simp [isShapeName]
    · simp only [List.mem_cons, Prod.mk.injEq, String.reduceEq, false_and, true_and, Json.array.injEq,
        List.not_mem_nil, or_false, false_or]
      rintro _ rfl inside hinside
      rw [List.mem_singleton.mp hinside]
      exact hinner
  have hmixed : MixedShapes mixedCalls :=
    .inChildren (.head _) (.head _) (.head _)
      (.here (.head _) (by simp) (.tail _ (.head _)) rfl (by simp))
  have hnative : toNative editorCalls = nativeCalls := by decide
  obtain ⟨t, ht⟩ : ∃ t, Tree.decode .value (Document.ofJson editorCalls) = .ok t := ⟨_, rfl⟩
  obtain ⟨hagree, hrefused⟩ := shapes_agree .value
  exact ⟨hnative, ⟨t, ht, hnative ▸ ((hagree _ heditor).1 t).mpr ht⟩, (hrefused _ hmixed).1⟩

end BucketQuery.Filter
