import BucketQuery.Proofs.Decode.Record
import BucketQuery.Proofs.Filter.Spelling

/-! Well-formed filters.

Not every operator can be read, and not every number written: an operator may be unrecognized under a
text that is a spelling, and a number may be infinite. A filter without such parts is well formed, and
no other filter is ever read from a document, of whatever source and in either shape
(`Tree.wellFormed_of_decode`). -/
namespace BucketQuery.Filter

open Decode

/-- The operator is one that reading gives, and the value is one that JSON has. -/
structure Condition.WellFormed (c : Condition) : Prop where
  operator : ∀ op ∈ c.operator, op.Obtained
  value : c.value.isFinite = true

mutual

def Node.WellFormed : Node → Prop
  | .condition c => c.WellFormed
  | .group _ children => Node.AllWellFormed children

def Node.AllWellFormed : List Node → Prop
  | [] => True
  | n :: rest => n.WellFormed ∧ Node.AllWellFormed rest

end

def Group.WellFormed (g : Group) : Prop := Node.AllWellFormed g.children

def Tree.WellFormed (t : Tree) : Prop := Node.AllWellFormed t.children

namespace Condition

theorem setOperator_wellFormed {src : Source} {d : Document} {c : Condition} {v : Json}
    (hc : c.WellFormed) (h : json src d = .ok v) : (c.setOperator v).WellFormed := by
  have hread : Operator.decode src d = .ok (Operator.ofJson v) := map_ok _ h
  refine ⟨?_, ?_⟩
  · cases v with
    | null => exact fun op hop => nomatch hop
    | bool | number | string | array | object =>
      rintro _ ⟨⟩
      exact .decoded hread
  · cases v <;> exact hc.value

theorem wellFormed_of_decode {src : Source} {d : Document} {c : Condition} (h : decode src d = .ok c) :
    c.WellFormed := by
  have hempty : empty.WellFormed := ⟨fun op hop => (by cases hop), rfl⟩
  refine Record.decode_keeps (P := Condition.WellFormed) ?_ hempty h
  intro field hfield e _ a b ha hread
  simp only [record, List.mem_cons, List.not_mem_nil, or_false] at hfield
  rcases hfield with rfl | rfl | rfl | rfl | rfl
  all_goals obtain ⟨v, hv, rfl⟩ := ok_of_map hread
  · cases v <;> exact ⟨ha.operator, ha.value⟩
  · exact setOperator_wellFormed ha hv
  · exact ⟨ha.operator, isFinite_of_json hv⟩
  · exact ⟨ha.operator, ha.value⟩
  · cases v <;> exact ⟨ha.operator, ha.value⟩

end Condition

/-! ### Every condition of a node -/

mutual

/-- Every condition in the node has the property. -/
def Node.Every (P : Condition → Prop) : Node → Prop
  | .condition c => P c
  | .group _ children => Node.EveryIn P children

def Node.EveryIn (P : Condition → Prop) : List Node → Prop
  | [] => True
  | n :: rest => n.Every P ∧ Node.EveryIn P rest

end

def Group.Every (P : Condition → Prop) (g : Group) : Prop := Node.EveryIn P g.children

def Tree.Every (P : Condition → Prop) (t : Tree) : Prop := Node.EveryIn P t.children

namespace Node

theorem everyIn_iff {P : Condition → Prop} (ns : List Node) : EveryIn P ns ↔ ∀ n ∈ ns, n.Every P := by
  induction ns with
  | nil =>
    rw [EveryIn]
    exact iff_of_true trivial fun n hn => absurd hn List.not_mem_nil
  | cons n rest ih => rw [EveryIn, List.forall_mem_cons, ih]

mutual

theorem every_mono {P Q : Condition → Prop} (h : ∀ c, P c → Q c) : (n : Node) → n.Every P → n.Every Q
  | .condition c, hn => h c hn
  | .group _ children, hn => everyIn_mono h children hn

theorem everyIn_mono {P Q : Condition → Prop} (h : ∀ c, P c → Q c) :
    (ns : List Node) → EveryIn P ns → EveryIn Q ns
  | [], _ => trivial
  | n :: rest, hns => ⟨every_mono h n hns.1, everyIn_mono h rest hns.2⟩

end

mutual

theorem wellFormed_of_every : (n : Node) → n.Every Condition.WellFormed → n.WellFormed
  | .condition c, h => by
    rw [Every] at h
    rw [WellFormed]
    exact h
  | .group _ children, h => by
    rw [Every] at h
    rw [WellFormed]
    exact allWellFormed_of_everyIn children h

theorem allWellFormed_of_everyIn : (ns : List Node) → EveryIn Condition.WellFormed ns → AllWellFormed ns
  | [], _ => by
    rw [AllWellFormed]
    trivial
  | n :: rest, h => by
    rw [EveryIn] at h
    rw [AllWellFormed]
    exact ⟨wellFormed_of_every n h.1, allWellFormed_of_everyIn rest h.2⟩

end

end Node

/-! ### What is read -/

/-- Every condition that was met so far in a list of nodes has the property. -/
structure Parts.Every (P : Condition → Prop) (p : Parts) : Prop where
  conditions : ∀ cs ∈ p.conditions.join, ∀ c ∈ cs, P c
  groups : ∀ gs ∈ p.groups.join, ∀ g ∈ gs, Group.Every P g
  children : ∀ ns ∈ p.children.join, Node.EveryIn P ns

namespace Parts

variable {P : Condition → Prop}

theorem empty_every : ({} : Parts).Every P :=
  ⟨fun _ h => (nomatch h), fun _ h => (nomatch h), fun _ h => (nomatch h)⟩

theorem joins_every {p : Parts} (hp : p.Every P) (joins : Connective) :
    Parts.Every P {p with joins := some joins} :=
  ⟨hp.conditions, hp.groups, hp.children⟩

theorem nodes_every {p : Parts} (hp : p.Every P) {ns : List Node} (h : p.nodes = .ok ns) :
    Node.EveryIn P ns := by
  have hconditions : ∀ c ∈ p.conditions.join.getD [], P c := by
    cases hc : p.conditions.join with
    | none => exact fun c h => absurd h List.not_mem_nil
    | some cs => exact hp.conditions cs hc
  have hgroups : ∀ g ∈ p.groups.join.getD [], Group.Every P g := by
    cases hg : p.groups.join with
    | none => exact fun g h => absurd h List.not_mem_nil
    | some gs => exact hp.groups gs hg
  rw [nodes] at h
  split at h
  · cases h
  · cases h
  · rename_i hchildren _ _
    cases h
    exact hp.children ns hchildren
  · cases h
    rw [Node.everyIn_iff]
    intro n hn
    rcases List.mem_append.mp hn with hn | hn
    · obtain ⟨c, hc, rfl⟩ := List.mem_map.mp hn
      rw [Node.Every]
      exact hconditions c hc
    · obtain ⟨g, hg, rfl⟩ := List.mem_map.mp hn
      rw [Group.node, Node.Every]
      exact hgroups g hg

theorem group_every {p : Parts} (hp : p.Every P) {g : Group} (h : p.group = .ok g) : g.Every P := by
  obtain ⟨ns, hns, rfl⟩ := ok_of_map h
  exact nodes_every hp hns

theorem tree_every {p : Parts} (hp : p.Every P) {t : Tree} (h : p.tree = .ok t) : t.Every P := by
  obtain ⟨ns, hns, rfl⟩ := ok_of_map h
  exact nodes_every hp hns

end Parts

/-- Where no list stands, nothing was met unless it is null. -/
theorem none_of_other {α : Type} {P : α → Prop} {d : Document} {x : Option α}
    (h : (if d.isNull then .ok none else unfit d "a sequence") = Except.ok x) : ∀ a ∈ x, P a := by
  split at h
  · cases h
    exact fun a ha => nomatch ha
  · exact absurd h (unfit_ne_ok _ _ _)

section Every
variable {D : Document → Prop} {P : Condition → Prop} {src : Source}
  (hinner : ∀ d, D d → ∀ e ∈ d.inner, D e)
  (hcondition : ∀ d, D d → ∀ c, Condition.decode src d = .ok c → P c)
include hinner hcondition

theorem conditions_every {d : Document} (hd : D d) {x : Option (List Condition)}
    (h : optional (list (Condition.decode src)) d = .ok x) : ∀ cs ∈ x, ∀ c ∈ cs, P c :=
  optional_all (fun _ hcs => list_all (fun e he => hcondition e (hinner d hd e he)) hcs) h

-- The readers call each other down the document, and each case is that of its reader. Some have the
-- hypotheses only through the others.
set_option linter.unusedSectionVars false in
mutual

theorem parts_every : (d : Document) → D d → {p : Parts} → parts src d = .ok p → p.Every P
  | .mapping fields stop, hd, p, h => by
    rw [parts] at h
    obtain ⟨p, hp, h⟩ := ok_of_bind h
    obtain ⟨_, _, h⟩ := ok_of_bind h
    cases h
    exact partFields_every fields (fun f hf => hinner _ hd _ (List.mem_map_of_mem hf)) Parts.empty_every hp
  | .sequence items stop, hd, p, h => by
    rw [parts] at h
    split at h
    · cases h
    · exact partItems_every items (hinner _ hd) h
  | .plain word meaning, _, p, h => by
    rw [parts.eq_def] at h
    split at h
    next heq => cases heq
    next heq => cases heq
    next =>
      cases h
      exact Parts.empty_every
    next => exact absurd h (unfit_ne_ok _ _ _)
  | .null, _, _, h | .bool _, _, _, h | .number _, _, _, h | .string _, _, _, h | .broken _, _, _, h => by
    rw [parts.eq_def] at h
    exact absurd h (unfit_ne_ok _ _ _)

theorem partFields_every :
    (fields : List (String × Document)) → (∀ f ∈ fields, D f.2) → {p q : Parts} → p.Every P →
      partFields src p fields = .ok q → q.Every P
  | [], _, p, q, hp, h => by
    rw [partFields] at h
    cases h
    exact hp
  | (name, d) :: rest, hd, p, q, hp, h => by
    obtain ⟨hd, hrest⟩ := List.forall_mem_cons.mp hd
    rw [partFields] at h
    split_ifs at h
    · obtain ⟨_, _, h⟩ := ok_of_bind h
      obtain ⟨v, hv, h⟩ := ok_of_bind h
      exact partFields_every rest hrest (Parts.joins_every hp (Connective.ofJson v)) h
    · obtain ⟨_, _, h⟩ := ok_of_bind h
      obtain ⟨cs, hcs, h⟩ := ok_of_bind h
      exact partFields_every (p := {p with conditions := some cs}) rest hrest
        ⟨conditions_every hinner hcondition hd hcs, hp.groups, hp.children⟩ h
    · obtain ⟨_, _, h⟩ := ok_of_bind h
      obtain ⟨gs, hgs, h⟩ := ok_of_bind h
      exact partFields_every (p := {p with groups := some gs}) rest hrest
        ⟨hp.conditions, groups_every d hd hgs, hp.children⟩ h
    · obtain ⟨_, _, h⟩ := ok_of_bind h
      obtain ⟨ns, hns, h⟩ := ok_of_bind h
      exact partFields_every (p := {p with children := some ns}) rest hrest
        ⟨hp.conditions, hp.groups, children_every d hd hns⟩ h
    · obtain ⟨_, _, h⟩ := ok_of_bind h
      exact partFields_every rest hrest hp h

theorem partItems_every {stop : Option Break} :
    (items : List Document) → (∀ d ∈ items, D d) → {p : Parts} → partItems src stop items = .ok p → p.Every P
  | [], _, p, h => by
    rw [partItems] at h
    obtain ⟨_, _, h⟩ := ok_of_bind h
    cases h
    exact Parts.empty_every
  | [a], _, p, h => by
    rw [partItems] at h
    obtain ⟨_, _, h⟩ := ok_of_bind h
    obtain ⟨_, _, h⟩ := ok_of_bind h
    cases h
    exact Parts.joins_every Parts.empty_every _
  | [a, b], hd, p, h => by
    rw [partItems] at h
    obtain ⟨_, _, h⟩ := ok_of_bind h
    obtain ⟨cs, hcs, h⟩ := ok_of_bind h
    obtain ⟨_, _, h⟩ := ok_of_bind h
    cases h
    exact ⟨conditions_every hinner hcondition (hd b (by simp)) hcs, Parts.empty_every.groups,
      Parts.empty_every.children⟩
  | [a, b, c], hd, p, h => by
    rw [partItems] at h
    obtain ⟨_, _, h⟩ := ok_of_bind h
    obtain ⟨cs, hcs, h⟩ := ok_of_bind h
    obtain ⟨gs, hgs, h⟩ := ok_of_bind h
    obtain ⟨_, _, h⟩ := ok_of_bind h
    cases h
    exact ⟨conditions_every hinner hcondition (hd b (by simp)) hcs, groups_every c (hd c (by simp)) hgs,
      Parts.empty_every.children⟩
  | a :: b :: c :: d :: left, hd, p, h => by
    rw [partItems] at h
    obtain ⟨_, _, h⟩ := ok_of_bind h
    obtain ⟨cs, hcs, h⟩ := ok_of_bind h
    obtain ⟨gs, hgs, h⟩ := ok_of_bind h
    obtain ⟨ns, hns, h⟩ := ok_of_bind h
    obtain ⟨_, _, h⟩ := ok_of_bind h
    cases h
    exact ⟨conditions_every hinner hcondition (hd b (by simp)) hcs, groups_every c (hd c (by simp)) hgs,
      children_every d (hd d (by simp)) hns⟩

theorem groups_every :
    (d : Document) → D d → {x : Option (List Group)} → groups src d = .ok x → ∀ gs ∈ x, ∀ g ∈ gs, g.Every P
  | .sequence items stop, hd, x, h => by
    rw [groups] at h
    obtain ⟨gs, hgs, h⟩ := ok_of_bind h
    obtain ⟨_, _, h⟩ := ok_of_bind h
    cases h
    rintro _ ⟨⟩
    exact groupItems_every items (hinner _ hd) hgs
  | .null, _, x, h | .bool _, _, x, h | .number _, _, x, h | .string _, _, x, h | .plain .., _, x, h
  | .mapping .., _, x, h | .broken _, _, x, h => by
    rw [groups.eq_def] at h
    exact none_of_other h

theorem groupItems_every :
    (items : List Document) → (∀ d ∈ items, D d) → {gs : List Group} → groupItems src items = .ok gs →
      ∀ g ∈ gs, g.Every P
  | [], _, gs, h => by
    rw [groupItems] at h
    cases h
    exact fun g hg => absurd hg List.not_mem_nil
  | d :: rest, hd, gs, h => by
    obtain ⟨hd, hrest⟩ := List.forall_mem_cons.mp hd
    rw [groupItems] at h
    obtain ⟨p, hp, h⟩ := ok_of_bind h
    obtain ⟨g, hg, h⟩ := ok_of_bind h
    obtain ⟨later, hlater, h⟩ := ok_of_bind h
    cases h
    exact List.forall_mem_cons.mpr
      ⟨Parts.group_every (parts_every d hd hp) hg, groupItems_every rest hrest hlater⟩

theorem children_every :
    (d : Document) → D d → {x : Option (List Node)} → children src d = .ok x → ∀ ns ∈ x, Node.EveryIn P ns
  | .sequence items stop, hd, x, h => by
    rw [children] at h
    obtain ⟨ns, hns, h⟩ := ok_of_bind h
    obtain ⟨_, _, h⟩ := ok_of_bind h
    cases h
    rintro _ ⟨⟩
    exact nodeItems_every items (hinner _ hd) hns
  | .null, _, x, h | .bool _, _, x, h | .number _, _, x, h | .string _, _, x, h | .plain .., _, x, h
  | .mapping .., _, x, h | .broken _, _, x, h => by
    rw [children.eq_def] at h
    exact none_of_other h

theorem nodeItems_every :
    (items : List Document) → (∀ d ∈ items, D d) → {ns : List Node} → nodeItems src items = .ok ns →
      Node.EveryIn P ns
  | [], _, ns, h => by
    rw [nodeItems] at h
    cases h
    rw [Node.EveryIn]
    trivial
  | d :: rest, hd, ns, h => by
    obtain ⟨hd, hrest⟩ := List.forall_mem_cons.mp hd
    rw [nodeItems] at h
    obtain ⟨n, hn, h⟩ := ok_of_bind h
    obtain ⟨later, hlater, h⟩ := ok_of_bind h
    cases h
    rw [Node.EveryIn]
    exact ⟨node_every d hd hn, nodeItems_every rest hrest hlater⟩

theorem node_every : (d : Document) → D d → {n : Node} → node src d = .ok n → n.Every P
  | .mapping [] stop, _, n, h => by
    rw [node] at h
    obtain ⟨_, _, h⟩ := ok_of_bind h
    cases h
  | .mapping ((name, d) :: rest) stop, hd, n, h => by
    have hd : D d := hinner _ hd d List.mem_cons_self
    rw [node] at h
    obtain ⟨_, _, h⟩ := ok_of_bind h
    obtain ⟨_, _, h⟩ := ok_of_bind h
    split at h
    · obtain ⟨p, hp, h⟩ := ok_of_bind h
      obtain ⟨n, hn, h⟩ := ok_of_bind h
      obtain ⟨_, _, h⟩ := ok_of_bind h
      obtain ⟨g, hg, rfl⟩ := ok_of_map hn
      cases h
      rw [Group.node, Node.Every]
      exact Parts.group_every (parts_every d hd hp) hg
    · obtain ⟨n, hn, h⟩ := ok_of_bind h
      obtain ⟨_, _, h⟩ := ok_of_bind h
      obtain ⟨c, hc, rfl⟩ := ok_of_map hn
      cases h
      rw [Node.Every]
      exact hcondition d hd c hc
  | .string s, _, n, h => by
    rw [node] at h
    obtain ⟨_, _, h⟩ := ok_of_bind h
    cases h
  | .null, _, n, h | .bool _, _, n, h | .number _, _, n, h | .plain .., _, n, h | .sequence .., _, n, h
  | .broken _, _, n, h => by
    rw [node.eq_def] at h
    exact absurd h (noChoice_ne_ok _ _ _)

end

/-- What holds of every condition that stands in a document holds of every condition of its tree. -/
theorem Tree.every_of_decode {d : Document} (hd : D d) {t : Tree} (h : decode src d = .ok t) : t.Every P := by
  obtain ⟨p, hp, h⟩ := ok_of_bind h
  exact Parts.tree_every (parts_every hinner hcondition d hd hp) h

end Every

/-- A filter tree that is read is well formed. -/
theorem Tree.wellFormed_of_decode {src : Source} {d : Document} {t : Tree} (h : decode src d = .ok t) :
    t.WellFormed := by
  have hevery : t.Every Condition.WellFormed :=
    Tree.every_of_decode (D := fun _ => True) (fun _ _ _ _ => trivial)
      (fun _ _ _ => Condition.wellFormed_of_decode) trivial h
  exact Node.allWellFormed_of_everyIn t.children hevery

end BucketQuery.Filter
