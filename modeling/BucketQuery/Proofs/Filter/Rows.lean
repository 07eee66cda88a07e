import BucketQuery.Proofs.Filter.Shapes

/-! Half-filled rows.

A row of the editor is an object, and whatever it holds it is read: what does not fit in its place is
taken for nothing (`Condition.ofRow`). So a list of nodes is read whenever it is in order apart from
its rows, at every level and in either shape, and as the tree that `ReadsAs` describes
(`HalfFilled.decode`). -/
namespace BucketQuery.Filter

open Decode
open Json (valuesOf)

/-! ### Rows -/

/-- The name of a column, blank for anything but a string. -/
def fieldText : Json → String
  | .string s => s
  | _ => ""

def operatorOf? : Json → Option Operator
  | .null => none
  | v => some (Operator.ofJson v)

/-- A switch, off for anything but a boolean. -/
def isOn : Json → Bool
  | .bool b => b
  | _ => false

/-- An object under distinct names. -/
def IsRow (v : Json) : Prop := ∃ fields, v = .object fields ∧ (fields.map Prod.fst).Nodup

namespace Condition

/-- The condition that a row stands for; names that are missing leave the part empty. -/
def ofRow (row : Json) : Condition where
  field := (row.field? "field").elim "" fieldText
  operator := (row.field? "operator").bind operatorOf?
  value := Json.orNull (row.field? "value")
  joins := (row.field? "logicalOperator").elim .and Connective.ofJson
  negated := (row.field? "isNot").any isOn

/-- The condition with what further fields say of it. -/
def fill (c : Condition) (fields : List (String × Json)) : Condition where
  field := (fields.lookup "field").elim c.field fieldText
  operator := (fields.lookup "operator").elim c.operator operatorOf?
  value := (fields.lookup "value").getD c.value
  joins := (fields.lookup "logicalOperator").elim c.joins Connective.ofJson
  negated := (fields.lookup "isNot").elim c.negated isOn

theorem setField_eq (c : Condition) (v : Json) : c.setField v = {c with field := fieldText v} := by
  cases v <;> rfl

theorem setOperator_eq (c : Condition) (v : Json) : c.setOperator v = {c with operator := operatorOf? v} := by
  cases v <;> rfl

theorem setNegated_eq (c : Condition) (v : Json) : c.setNegated v = {c with negated := isOn v} := by
  cases v <;> rfl

-- One case for each name; the others are as they were.
theorem readFields_fill {fields : List (String × Json)} (hfinite : Json.fieldsFinite fields = true)
    (hdistinct : (fields.map Prod.fst).Nodup) {seen : List String}
    (hnew : ∀ name ∈ fields.map Prod.fst, seen.contains name = false) (c : Condition) :
    ∃ seen', (record .value).readFields seen c (Document.ofFields fields) =
      .ok (seen', c.fill fields) := by
  induction fields generalizing seen c with
  | nil => exact ⟨seen, rfl⟩
  | cons f rest ih =>
    obtain ⟨name, v⟩ := f
    rw [List.map_cons, List.nodup_cons] at hdistinct
    rw [Json.fieldsFinite, Bool.and_eq_true] at hfinite
    have hv : json .value (Document.ofJson v) = .ok v := json_ofJson hfinite.1
    have hold : seen.contains name = false := hnew name List.mem_cons_self
    have hlater (n : String) (hn : n ∈ rest.map Prod.fst) : (name :: seen).contains n = false := by
      have hne : n ≠ name := fun h => hdistinct.1 (h ▸ hn)
      rw [List.contains_cons, hnew n (List.mem_cons_of_mem _ hn), Bool.or_false, beq_eq_false_iff_ne]
      exact hne
    have known {field : Decode.Field Condition} {c' : Condition}
        (hfield : (record .value).fields.find? (·.name == name) = some field)
        (hread : field.read (Document.ofJson v) c = .ok c')
        (hfill : c'.fill rest = c.fill ((name, v) :: rest)) :
        ∃ seen', (record .value).readFields seen c (Document.ofFields ((name, v) :: rest)) =
          .ok (seen', c.fill ((name, v) :: rest)) := by
      obtain ⟨seen', h⟩ := ih hfinite.2 hdistinct.2 hlater c'
      exact ⟨seen', hfill ▸ (Record.readFields_cons hfield hold hread).trans h⟩
    have hgone := Json.lookup_of_not_mem hdistinct.1
    by_cases hfield : name = "field"
    · subst hfield
      refine known rfl (map_ok _ hv) ?_
      rw [setField_eq]
      simp [fill, List.lookup_cons, hgone]
    by_cases hoperator : name = "operator"
    · subst hoperator
      refine known rfl (map_ok _ hv) ?_
      rw [setOperator_eq]
      simp [fill, List.lookup_cons, hgone]
    by_cases hvalue : name = "value"
    · subst hvalue
      refine known rfl (map_ok _ hv) ?_
      simp [fill, List.lookup_cons, hgone]
    by_cases hjoins : name = "logicalOperator"
    · subst hjoins
      refine known rfl (map_ok _ hv) ?_
      simp [fill, List.lookup_cons, hgone]
    by_cases hnegated : name = "isNot"
    · subst hnegated
      refine known rfl (map_ok _ hv) ?_
      rw [setNegated_eq]
      simp [fill, List.lookup_cons, hgone]
    · -- Nothing of the condition goes by the name.
      have hunknown : (record .value).fields.find? (·.name == name) = none := by
        simp [record, Ne.symm hfield, Ne.symm hoperator, Ne.symm hvalue, Ne.symm hjoins, Ne.symm hnegated]
      have hignore : ignore (Document.ofJson v) = .ok () := by rw [ignore, Document.skip_ofJson]
      have hnew' (n : String) (hn : n ∈ rest.map Prod.fst) : seen.contains n = false :=
        hnew n (List.mem_cons_of_mem _ hn)
      obtain ⟨seen', h⟩ := ih hfinite.2 hdistinct.2 hnew' c
      refine ⟨seen', ?_⟩
      have hfill : c.fill ((name, v) :: rest) = c.fill rest := by
        simp [fill, List.lookup_cons, beq_eq_false_iff_ne.mpr (Ne.symm hfield),
          beq_eq_false_iff_ne.mpr (Ne.symm hoperator), beq_eq_false_iff_ne.mpr (Ne.symm hvalue),
          beq_eq_false_iff_ne.mpr (Ne.symm hjoins), beq_eq_false_iff_ne.mpr (Ne.symm hnegated)]
      rw [Document.ofFields, Record.readFields_other rfl hunknown hignore, hfill]
      exact h

/-- A row is read, whatever it holds. -/
theorem decode_row {row : Json} (h : IsRow row) (hfinite : row.isFinite = true) :
    decode .value (Document.ofJson row) = .ok (ofRow row) := by
  obtain ⟨fields, rfl, hdistinct⟩ := h
  rw [Json.isFinite] at hfinite
  have hnew (name : String) (_ : name ∈ fields.map Prod.fst) :
      ([] : List String).contains name = false := rfl
  obtain ⟨seen, hread⟩ := readFields_fill hfinite hdistinct hnew empty
  have hmissing : (record .value).checkMissing seen = .ok () := rfl
  have hrow : empty.fill fields = ofRow (.object fields) := by
    simp only [fill, ofRow, Json.field?, empty, Json.orNull]
    congr 1
    · cases fields.lookup "operator" <;> rfl
    · cases fields.lookup "isNot" <;> rfl
  rw [Document.ofJson, decode, Record.decode_mapping hread hmissing, hrow]

end Condition

/-! ### Lists of nodes -/

/-- What a list of nodes has in it: rows, and further lists. -/
inductive Member where
  | row (row : Json)
  | list (list : Json)

/-- A node in a list of children. -/
def member? : Json → Option Member
  | .object [("condition", row)] => some (.row row)
  | .object [("group", list)] => some (.list list)
  | _ => none

/-- The members of a list in either shape, in the order of the tree. -/
def members (v : Json) : List Member :=
  (itemsUnder "conditions" (namedParts v)).map .row ++
    (itemsUnder "groups" (namedParts v)).map .list ++
    (itemsUnder "children" (namedParts v)).filterMap member?

/-- How a list joins the node before it. -/
def joinsOf (v : Json) : Connective :=
  ((namedParts v).lookup "logicalOperator").elim .and Connective.ofJson

/-- An object, or the parts of a list of nodes in their order. -/
def IsRecord (v : Json) : Prop :=
  (∃ fields, v = .object fields) ∨ ∃ items, v = .array items ∧ items.length ≤ partNames.length

def isListName (name : String) : Bool := isShapeName name || name = "children"

/-- A list of nodes in one of the two shapes, and all lists in it so. Its rows may hold anything. -/
inductive HalfFilled : Json → Prop
  | list {v : Json} (record : IsRecord v) (distinct : ((namedParts v).map Prod.fst).Nodup)
    (lists : ∀ f ∈ namedParts v, isListName f.1 = true → f.2 = .null ∨ ∃ vs, f.2 = .array vs)
    (oneShape : ∀ ns, ("children", .array ns) ∈ namedParts v →
      ∀ f ∈ namedParts v, isShapeName f.1 = true → f.2 = .null)
    (nodes : ∀ n ∈ itemsUnder "children" (namedParts v), ∃ m, member? n = some m)
    (rows : ∀ r, .row r ∈ members v → IsRow r)
    (inner : ∀ w, .list w ∈ members v → HalfFilled w) : HalfFilled v

/-- The node that a member is read as. -/
inductive ReadsAs : Member → Node → Prop
  | row (r : Json) : ReadsAs (.row r) (.condition (.ofRow r))
  | list {v : Json} {ns : List Node} (children : List.Forall₂ ReadsAs (members v) ns) :
    ReadsAs (.list v) (.group (joinsOf v) ns)

/-! ### Reading the parts -/

section Finite
variable {v w : Json} {name : String} (h : v.isFinite = true)
include h

theorem isFinite_of_part (hw : (name, w) ∈ namedParts v) : w.isFinite = true := by
  cases v with
  | object fields => exact (Json.fieldsFinite_iff fields).mp h (name, w) hw
  | array items => exact (Json.itemsFinite_iff items).mp h w (List.of_mem_zip hw).2
  | null | bool | number | string => exact absurd hw List.not_mem_nil

theorem isFinite_of_item (hw : w ∈ itemsUnder name (namedParts v)) : w.isFinite = true := by
  obtain ⟨list, hlist, hw⟩ := List.mem_flatMap.mp hw
  have hfinite := isFinite_of_part h (Json.mem_valuesOf.mp hlist)
  cases list with
  | array items => exact (Json.itemsFinite_iff items).mp hfinite w hw
  | null | bool | number | string | object => exact absurd hw List.not_mem_nil

end Finite

/-- The parts of a list that is in order are read. -/
theorem parts_of_taken {v : Json} {p : Parts} (hrecord : IsRecord v)
    (h : Parts.Taken .value (namedParts v) {} p) : parts .value (Document.ofJson v) = .ok p := by
  obtain ⟨fields, rfl⟩ | ⟨items, rfl, hlength⟩ := hrecord
  · rw [parts_object]
    exact (partFields_iff .value fields {} p).mpr h
  · rw [Document.ofJson, parts, if_neg (by decide)]
    obtain ⟨joins, conditions, groups, children⟩ := p
    obtain ⟨hj, hc, hg, hk⟩ := h
    dsimp only at hj hc hg hk
    -- One case for each number of parts that are there.
    rcases items with _ | ⟨a, _ | ⟨b, _ | ⟨c, _ | ⟨d, _ | ⟨e, left⟩⟩⟩⟩⟩
    · cases hj
      cases hc
      cases hg
      cases hk
      rfl
    · obtain ⟨_, hjoins, rfl⟩ := takePart_one_iff.mp hj
      obtain ⟨v, hv, rfl⟩ := ok_of_map hjoins
      cases hc
      cases hg
      cases hk
      simp only [Document.ofItems, partItems, hv]
      rfl
    · obtain ⟨_, hjoins, rfl⟩ := takePart_one_iff.mp hj
      obtain ⟨v, hv, rfl⟩ := ok_of_map hjoins
      obtain ⟨_, hconditions, rfl⟩ := takePart_one_iff.mp hc
      cases hg
      cases hk
      simp only [Document.ofItems, partItems, hv, hconditions]
      rfl
    · obtain ⟨_, hjoins, rfl⟩ := takePart_one_iff.mp hj
      obtain ⟨v, hv, rfl⟩ := ok_of_map hjoins
      obtain ⟨_, hconditions, rfl⟩ := takePart_one_iff.mp hc
      obtain ⟨_, hgroups, rfl⟩ := takePart_one_iff.mp hg
      cases hk
      simp only [Document.ofItems, partItems, hv, hconditions, hgroups]
      rfl
    · obtain ⟨_, hjoins, rfl⟩ := takePart_one_iff.mp hj
      obtain ⟨v, hv, rfl⟩ := ok_of_map hjoins
      obtain ⟨_, hconditions, rfl⟩ := takePart_one_iff.mp hc
      obtain ⟨_, hgroups, rfl⟩ := takePart_one_iff.mp hg
      obtain ⟨_, hchildren, rfl⟩ := takePart_one_iff.mp hk
      simp only [Document.ofItems, partItems, hv, hconditions, hgroups, hchildren]
      rfl
    · simp only [List.length_cons, partNames, List.length_nil] at hlength
      omega

section Lists
variable {α : Type} {fields : List (String × Json)}

/-- Items that can be read one by one are read as a list. -/
theorem each_of_forall {read : Document → Decoded α} {R : Json → α → Prop} {vs : List Json}
    (h : ∀ v ∈ vs, ∃ a, read (Document.ofJson v) = .ok a ∧ R v a) :
    ∃ as, each read (Document.ofItems vs) = .ok as ∧ List.Forall₂ R vs as := by
  induction vs with
  | nil => exact ⟨[], rfl, .nil⟩
  | cons v rest ih =>
    rw [List.forall_mem_cons] at h
    obtain ⟨⟨a, ha, hva⟩, hrest⟩ := h
    obtain ⟨as, has, hR⟩ := ih hrest
    exact ⟨a :: as, each_cons_iff.mpr ⟨a, ha, as, has, rfl⟩, .cons hva hR⟩

/-- A list whose items can be read is read. Where it is not there, nothing is. -/
theorem takePart_of_items {name : String} (read : Document → Decoded (Option (List α)))
    {readItem : Document → Decoded α} (hnull : read .null = .ok none)
    (harray : ∀ vs, read (Document.ofJson (.array vs)) = some <$> each readItem (Document.ofItems vs))
    (distinct : (fields.map Prod.fst).Nodup)
    (hlist : ∀ v, (name, v) ∈ fields → v = .null ∨ ∃ vs, v = .array vs) {as : List α}
    (has : each readItem (Document.ofItems (itemsUnder name fields)) = .ok as) :
    ∃ x, takePart name read none (valuesOf name fields) = .ok x ∧
      x.join.getD [] = as ∧ (x.join = none ∨ ∃ vs, (name, .array vs) ∈ fields ∧ x.join = some as) := by
  unfold itemsUnder at has
  obtain hnone | ⟨v, hone⟩ := Json.valuesOf_of_nodup name distinct
  · rw [hnone] at has ⊢
    cases has
    exact ⟨none, rfl, rfl, .inl rfl⟩
  · have hmem : (name, v) ∈ fields := Json.mem_valuesOf.mp (hone ▸ List.mem_singleton_self v)
    rw [hone] at has ⊢
    obtain rfl | ⟨vs, rfl⟩ := hlist v hmem
    · cases has
      exact ⟨some none, takePart_one hnull, rfl, .inl rfl⟩
    · rw [List.flatMap_cons, List.flatMap_nil, List.append_nil, Json.items] at has
      exact ⟨some (some as), takePart_one ((harray vs).trans (map_ok some has)), rfl,
        .inr ⟨vs, hmem, rfl⟩⟩

end Lists

/-- The connective of a list is read, whatever stands for it. -/
theorem takePart_joins {v : Json} (distinct : ((namedParts v).map Prod.fst).Nodup)
    (hfinite : v.isFinite = true) :
    ∃ joins, takePart "logicalOperator" (Connective.decode .value) none
      (valuesOf "logicalOperator" (namedParts v)) = .ok joins ∧ joins.getD .and = joinsOf v := by
  rw [joinsOf, Json.lookup_eq_head?]
  obtain hnone | ⟨w, hone⟩ := Json.valuesOf_of_nodup "logicalOperator" distinct
  · rw [hnone]
    exact ⟨none, rfl, rfl⟩
  · have hmem : ("logicalOperator", w) ∈ namedParts v :=
      Json.mem_valuesOf.mp (hone ▸ List.mem_singleton_self w)
    rw [hone]
    exact ⟨some (.ofJson w), takePart_one (map_ok _ (json_ofJson (isFinite_of_part hfinite hmem))), rfl⟩

theorem member?_row {v r : Json} (h : member? v = some (.row r)) : v = nodeOf "condition" r := by
  unfold member? at h
  split at h
  · cases h
    rfl
  · cases h
  · cases h

theorem member?_list {v w : Json} (h : member? v = some (.list w)) : v = nodeOf "group" w := by
  unfold member? at h
  split at h
  · cases h
  · cases h
    rfl
  · cases h

/-- A node of children is read if what it holds is. -/
theorem node_of_member {v : Json} {m : Member} (hm : member? v = some m)
    (hrow : ∀ r, m = .row r → Condition.decode .value (Document.ofJson r) = .ok (.ofRow r))
    (hlist : ∀ w, m = .list w →
      ∃ g, Group.decode .value (Document.ofJson w) = .ok g ∧ ReadsAs (.list w) g.node) :
    ∃ n, node .value (Document.ofJson v) = .ok n ∧ ReadsAs m n := by
  cases m with
  | row r =>
    obtain rfl := member?_row hm
    refine ⟨_, ?_, .row r⟩
    rw [nodeOf, Document.ofJson, Document.ofFields, Document.ofFields, node_condition]
    exact map_ok _ (hrow r rfl)
  | list w =>
    obtain rfl := member?_list hm
    obtain ⟨g, hg, hread⟩ := hlist w rfl
    refine ⟨_, ?_, hread⟩
    rw [nodeOf, Document.ofJson, Document.ofFields, Document.ofFields, node_group]
    exact map_ok _ hg

theorem readsAs_filterMap {vs : List Json} {ns : List Node}
    (h : List.Forall₂ (fun v n => ∃ m, member? v = some m ∧ ReadsAs m n) vs ns) :
    List.Forall₂ ReadsAs (vs.filterMap member?) ns := by
  induction h with
  | nil => exact .nil
  | cons hn _ ih =>
    obtain ⟨m, hm, hread⟩ := hn
    rw [List.filterMap_cons_some hm]
    exact .cons hread ih

/-- In one of the two shapes, what is missing of the other adds nothing. -/
theorem Parts.nodes_of_oneShape {p : Parts}
    (h : p.children.join = none ∨ p.conditions.join = none ∧ p.groups.join = none) :
    p.nodes = .ok ((p.conditions.join.getD []).map .condition ++
      (p.groups.join.getD []).map Group.node ++ p.children.join.getD []) := by
  unfold nodes
  rcases h with hchildren | ⟨hconditions, hgroups⟩
  · rw [hchildren, Option.getD_none, List.append_nil]
    cases p.conditions.join <;> cases p.groups.join <;> rfl
  · rw [hconditions, hgroups]
    cases p.children.join <;> rfl

/-- A list that is in order apart from its rows is read. -/
theorem HalfFilled.decode {v : Json} (h : HalfFilled v) (hfinite : v.isFinite = true) :
    ∃ ns, Group.decode .value (Document.ofJson v) = .ok ⟨joinsOf v, ns⟩ ∧
      List.Forall₂ ReadsAs (members v) ns := by
  induction h with
  | @list v record distinct lists oneShape nodes rows inner ih =>
    have hrow {r : Json} (hr : .row r ∈ members v) (hf : r.isFinite = true) :
        Condition.decode .value (Document.ofJson r) = .ok (.ofRow r) :=
      Condition.decode_row (rows r hr) hf
    have hlist {w : Json} (hw : .list w ∈ members v) (hf : w.isFinite = true) :
        ∃ g, Group.decode .value (Document.ofJson w) = .ok g ∧ ReadsAs (.list w) g.node := by
      obtain ⟨ns, hg, hns⟩ := ih w hw hf
      exact ⟨_, hg, .list hns⟩
    have hitem {name : String} {w : Json} (hw : w ∈ itemsUnder name (namedParts v)) :
        w.isFinite = true := isFinite_of_item hfinite hw
    have hcondition : ∀ r ∈ itemsUnder "conditions" (namedParts v), ∃ c,
        Condition.decode .value (Document.ofJson r) = .ok c ∧ ReadsAs (.row r) (.condition c) := by
      intro r hr
      have hmem : .row r ∈ members v :=
        List.mem_append_left _ (List.mem_append_left _ (List.mem_map_of_mem hr))
      exact ⟨_, hrow hmem (hitem hr), .row r⟩
    have hgroup : ∀ w ∈ itemsUnder "groups" (namedParts v), ∃ g,
        Group.decode .value (Document.ofJson w) = .ok g ∧ ReadsAs (.list w) g.node := by
      intro w hw
      have hmem : .list w ∈ members v :=
        List.mem_append_left _ (List.mem_append_right _ (List.mem_map_of_mem hw))
      exact hlist hmem (hitem hw)
    have hnode : ∀ w ∈ itemsUnder "children" (namedParts v), ∃ n,
        node .value (Document.ofJson w) = .ok n ∧ ∃ m, member? w = some m ∧ ReadsAs m n := by
      intro w hw
      obtain ⟨m, hm⟩ := nodes w hw
      have hmem : m ∈ members v := List.mem_append_right _ (List.mem_filterMap.mpr ⟨w, hw, hm⟩)
      obtain ⟨n, hn, hread⟩ := node_of_member hm
        (by rintro r rfl; exact hrow hmem (isFinite_of_part (member?_row hm ▸ hitem hw) (.head _)))
        (by rintro l rfl; exact hlist hmem (isFinite_of_part (member?_list hm ▸ hitem hw) (.head _)))
      exact ⟨n, hn, m, hm, hread⟩
    obtain ⟨cs, hcs, hrows⟩ := each_of_forall hcondition
    obtain ⟨gs, hgs, hlists⟩ := each_of_forall hgroup
    obtain ⟨ns, hns, hnodes⟩ := each_of_forall hnode
    obtain ⟨joins, hj, hjoins⟩ := takePart_joins distinct hfinite
    obtain ⟨conditions, hc, rfl, hcgiven⟩ := takePart_of_items _ rfl conditions_array distinct
      (fun w hw => lists (_, w) hw rfl) hcs
    obtain ⟨groups, hg, rfl, hggiven⟩ := takePart_of_items (Filter.groups .value) rfl
      groups_array distinct (fun w hw => lists (_, w) hw rfl) hgs
    obtain ⟨children, hk, rfl, hkgiven⟩ := takePart_of_items (Filter.children .value) rfl
      children_array distinct (fun w hw => lists (_, w) hw rfl) hns
    have hparts : parts .value (Document.ofJson v) = .ok ⟨joins, conditions, groups, children⟩ :=
      parts_of_taken record ⟨hj, hc, hg, hk⟩
    have hone : children.join = none ∨ conditions.join = none ∧ groups.join = none := by
      refine hkgiven.imp_right ?_
      rintro ⟨vs, hgiven, -⟩
      refine ⟨hcgiven.resolve_right ?_, hggiven.resolve_right ?_⟩
      · rintro ⟨ws, hws, -⟩
        cases oneShape vs hgiven _ hws rfl
      · rintro ⟨ws, hws, -⟩
        cases oneShape vs hgiven _ hws rfl
    have hread : Parts.group ⟨joins, conditions, groups, children⟩ = .ok ⟨joins.getD .and, _⟩ :=
      map_ok _ (Parts.nodes_of_oneShape hone)
    rw [Group.decode, hparts, ← hjoins]
    refine ⟨_, hread, List.rel_append (List.rel_append ?_ ?_) (readsAs_filterMap hnodes)⟩
    · exact List.forall₂_map_left_iff.mpr (List.forall₂_map_right_iff.mpr hrows)
    · exact List.forall₂_map_left_iff.mpr (List.forall₂_map_right_iff.mpr hlists)

end BucketQuery.Filter
