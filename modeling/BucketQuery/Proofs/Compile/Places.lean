import BucketQuery.Proofs.Compile.Erase
import Mathlib.Data.List.Lemmas

/-! The places of a filter tree.

`Tree.places` lists every node with its path, a group before what is in it; `Tree.closings` lists the
same nodes with a group behind what is in it. `Tree.at?` goes the other way and follows a path down,
counting conditions and groups apart. Main statements: a path leads to exactly the node that is
listed under it (`mem_places_iff`), so no two nodes share one (`places_nodup`), nor do their texts
(`text_injective`). -/
namespace BucketQuery.Compile

open BucketQuery.Filter (Condition Connective Node Tree)

/-! ### Listing -/

/-- The nodes among some siblings and below them, in the order of the document. -/
def places (around : List Nat) : (conditions groups : Nat) → List Node → List (Path × Node)
  | _, _, [] => []
  | i, j, .condition c :: rest =>
    (⟨around, .condition i⟩, .condition c) :: places around (i + 1) j rest
  | i, j, .group joins children :: rest =>
    (⟨around, .group j⟩, .group joins children) ::
      (places (around ++ [j]) 0 0 children ++ places around i (j + 1) rest)

/-- The same nodes in the order in which they end. -/
def closings (around : List Nat) : (conditions groups : Nat) → List Node → List (Path × Node)
  | _, _, [] => []
  | i, j, .condition c :: rest =>
    (⟨around, .condition i⟩, .condition c) :: closings around (i + 1) j rest
  | i, j, .group joins children :: rest =>
    closings (around ++ [j]) 0 0 children ++
      (⟨around, .group j⟩, .group joins children) :: closings around i (j + 1) rest

theorem closings_perm (around : List Nat) (i j : Nat) (ns : List Node) :
    (closings around i j ns).Perm (places around i j ns) := by
  fun_induction places around i j ns with
  | case1 =>
    rw [closings]
  | case2 around i j c rest ih =>
    rw [closings]
    exact ih.cons _
  | case3 around i j joins children rest ihinner ih =>
    rw [closings]
    exact List.perm_middle.trans ((ihinner.append ih).cons _)

/-- Siblings and what is below them have paths at and below the siblings' own. -/
theorem places_from (around : List Nat) (i j : Nat) (ns : List Node) :
    ∀ x ∈ places around i j ns, x.1.From around i j := by
  fun_induction places around i j ns with
  | case1 => exact fun x hx => absurd hx List.not_mem_nil
  | case2 around i j c rest ih =>
    intro x hx
    rcases List.mem_cons.mp hx with rfl | hx
    · exact Path.own_condition_from
    · exact Path.from_of_later_condition (ih x hx)
  | case3 around i j joins children rest ihinner ih =>
    intro x hx
    rcases List.mem_cons.mp hx with rfl | hx
    · exact Path.own_group_from
    · rcases List.mem_append.mp hx with hx | hx
      · exact Path.from_of_inner (ihinner x hx)
      · exact Path.from_of_later_group (ih x hx)

/-- No two nodes have the same path. -/
theorem places_nodup (around : List Nat) (i j : Nat) (ns : List Node) :
    ((places around i j ns).map Prod.fst).Nodup := by
  fun_induction places around i j ns with
  | case1 => exact List.nodup_nil
  | case2 around i j c rest ih =>
    rw [List.map_cons, List.nodup_cons, List.mem_map]
    refine ⟨?_, ih⟩
    rintro ⟨x, hx, hp⟩
    exact Path.own_condition_not_later (hp ▸ places_from around (i + 1) j rest x hx)
  | case3 around i j joins children rest ihinner ih =>
    have hinner := places_from (around ++ [j]) 0 0 children
    have hlater := places_from around i (j + 1) rest
    rw [List.map_cons, List.nodup_cons, List.map_append, List.mem_append, List.mem_map, List.mem_map]
    refine ⟨?_, List.nodup_append.mpr ⟨ihinner, ih, ?_⟩⟩
    · rintro (⟨x, hx, hp⟩ | ⟨x, hx, hp⟩)
      · exact Path.own_group_not_inner (hp ▸ hinner x hx)
      · exact Path.own_group_not_later (hp ▸ hlater x hx)
    · intro p hp q hq hpq
      obtain ⟨x, hx, rfl⟩ := List.mem_map.mp hp
      obtain ⟨y, hy, rfl⟩ := List.mem_map.mp hq
      exact Path.inner_not_later (hinner x hx) (hpq ▸ hlater y hy)

/-! ### Following a path -/

def conditionsOf : List Node → List Condition
  | [] => []
  | .condition c :: rest => c :: conditionsOf rest
  | .group .. :: rest => conditionsOf rest

def groupsOf : List Node → List (Connective × List Node)
  | [] => []
  | .condition _ :: rest => groupsOf rest
  | .group joins children :: rest => (joins, children) :: groupsOf rest

/-- The node in a slot among its siblings. -/
def slotAt? (ns : List Node) : Slot → Option Node
  | .condition i => (conditionsOf ns)[i]?.map .condition
  | .group j => (groupsOf ns)[j]?.map fun g => .group g.1 g.2

/-- Goes down into one group after the other. -/
def nodeAt? : (groups : List Nat) → Slot → List Node → Option Node
  | [], slot, ns => slotAt? ns slot
  | j :: below, slot, ns => (groupsOf ns)[j]?.bind fun g => nodeAt? below slot g.2

/-- The path of a place among siblings when it is told from the outside: `around` is put in front, and
siblings before them are counted in. -/
def Path.moved (around : List Nat) (i j : Nat) (p : Path) : Path :=
  match p.groups, p.slot with
  | [], .condition k => ⟨around, .condition (i + k)⟩
  | [], .group k => ⟨around, .group (j + k)⟩
  | k :: below, slot => ⟨around ++ (j + k) :: below, slot⟩

theorem Path.moved_outermost (p : Path) : p.moved [] 0 0 = p := by
  obtain ⟨groups, slot⟩ := p
  cases groups with
  | nil => cases slot <;> simp only [moved, Nat.zero_add]
  | cons k below => simp only [moved, Nat.zero_add, List.nil_append]

/-- What is in a group, told from the outside of the group. -/
theorem Path.moved_inner (around : List Nat) (i j : Nat) (groups : List Nat) (slot : Slot) :
    Path.moved (around ++ [j]) 0 0 ⟨groups, slot⟩ = Path.moved around i j ⟨0 :: groups, slot⟩ := by
  cases groups with
  | nil => cases slot <;> simp only [moved, Nat.zero_add, Nat.add_zero]
  | cons k below => simp only [moved, Nat.zero_add, Nat.add_zero, List.append_assoc,
      List.singleton_append]

theorem Path.moved_from (around : List Nat) (i j : Nat) (p : Path) :
    (p.moved around i j).From around i j := by
  obtain ⟨groups, slot⟩ := p
  cases groups with
  | nil =>
    cases slot with
    | condition k => exact .inl ⟨rfl, i + k, Nat.le_add_right i k, rfl⟩
    | group k => exact .inr (.inl ⟨rfl, j + k, Nat.le_add_right j k, rfl⟩)
  | cons k below => exact .inr (.inr ⟨j + k, below, Nat.le_add_right j k, rfl⟩)

section Member
variable {around : List Nat} {i j : Nat} {c : Condition} {joins : Connective} {children rest : List Node}
  {p : Path} {n : Node}

theorem mem_places_own_condition :
    (⟨around, .condition i⟩, n) ∈ places around i j (.condition c :: rest) ↔ .condition c = n := by
  rw [places, List.mem_cons, Prod.mk.injEq, eq_comm (a := n)]
  refine ⟨fun h => h.elim And.right fun h => ?_, fun h => .inl ⟨rfl, h⟩⟩
  exact absurd (places_from around (i + 1) j rest _ h) Path.own_condition_not_later

theorem mem_places_later_condition (h : p.From around (i + 1) j) :
    (p, n) ∈ places around i j (.condition c :: rest) ↔ (p, n) ∈ places around (i + 1) j rest := by
  rw [places, List.mem_cons, Prod.mk.injEq]
  refine ⟨fun hm => hm.resolve_left ?_, .inr⟩
  rintro ⟨rfl, _⟩
  exact Path.own_condition_not_later h

theorem mem_places_own_group :
    (⟨around, .group j⟩, n) ∈ places around i j (.group joins children :: rest) ↔
      .group joins children = n := by
  rw [places, List.mem_cons, List.mem_append, Prod.mk.injEq, eq_comm (a := n)]
  refine ⟨fun h => h.elim And.right fun h => ?_, fun h => .inl ⟨rfl, h⟩⟩
  rcases h with h | h
  · exact absurd (places_from (around ++ [j]) 0 0 children _ h) Path.own_group_not_inner
  · exact absurd (places_from around i (j + 1) rest _ h) Path.own_group_not_later

theorem mem_places_inner (h : p.From (around ++ [j]) 0 0) :
    (p, n) ∈ places around i j (.group joins children :: rest) ↔
      (p, n) ∈ places (around ++ [j]) 0 0 children := by
  rw [places, List.mem_cons, List.mem_append, Prod.mk.injEq]
  refine ⟨fun hm => ?_, fun hm => .inr (.inl hm)⟩
  rcases hm with ⟨rfl, _⟩ | hm | hm
  · exact absurd h Path.own_group_not_inner
  · exact hm
  · exact absurd (places_from around i (j + 1) rest _ hm) (Path.inner_not_later h)

theorem mem_places_later_group (h : p.From around i (j + 1)) :
    (p, n) ∈ places around i j (.group joins children :: rest) ↔
      (p, n) ∈ places around i (j + 1) rest := by
  rw [places, List.mem_cons, List.mem_append, Prod.mk.injEq]
  refine ⟨fun hm => ?_, fun hm => .inr (.inr hm)⟩
  rcases hm with ⟨rfl, _⟩ | hm | hm
  · exact absurd h Path.own_group_not_later
  · exact absurd h (Path.inner_not_later (places_from (around ++ [j]) 0 0 children _ hm))
  · exact hm

end Member

/-- What is listed under a path is what one gets to by following it. -/
theorem mem_places_moved (around : List Nat) (i j : Nat) (ns : List Node) (groups : List Nat)
    (slot : Slot) (n : Node) :
    (Path.moved around i j ⟨groups, slot⟩, n) ∈ places around i j ns ↔
      nodeAt? groups slot ns = some n := by
  induction around, i, j, ns using places.induct generalizing groups slot with
  | case1 =>
    rw [places]
    refine ⟨fun h => absurd h List.not_mem_nil, fun h => ?_⟩
    cases groups with
    | nil => cases slot <;> cases h
    | cons k below => cases h
  | case2 around i j c rest ih =>
    -- Behind the condition the conditions are counted from one on.
    have later (groups slot slot') (hmoved : Path.moved around i j ⟨groups, slot'⟩ =
        Path.moved around (i + 1) j ⟨groups, slot⟩)
        (hnode : nodeAt? groups slot' (.condition c :: rest) = nodeAt? groups slot rest) :
        (Path.moved around i j ⟨groups, slot'⟩, n) ∈ places around i j (.condition c :: rest) ↔
          nodeAt? groups slot' (.condition c :: rest) = some n := by
      rw [hmoved, hnode, mem_places_later_condition (Path.moved_from ..)]
      exact ih groups slot
    cases groups with
    | nil =>
      cases slot with
      | condition k =>
        cases k with
        | zero => exact mem_places_own_condition.trans (Option.some_inj.symm)
        | succ k => exact later [] (.condition k) _ (by simp only [Path.moved, Nat.add_assoc, Nat.add_comm 1]) rfl
      | group k => exact later [] (.group k) _ rfl rfl
    | cons k below => exact later (k :: below) slot _ rfl rfl
  | case3 around i j joins children rest ihinner ih =>
    have later (groups slot groups' slot') (hmoved : Path.moved around i j ⟨groups', slot'⟩ =
        Path.moved around i (j + 1) ⟨groups, slot⟩)
        (hnode : nodeAt? groups' slot' (.group joins children :: rest) = nodeAt? groups slot rest) :
        (Path.moved around i j ⟨groups', slot'⟩, n) ∈
            places around i j (.group joins children :: rest) ↔
          nodeAt? groups' slot' (.group joins children :: rest) = some n := by
      rw [hmoved, hnode, mem_places_later_group (Path.moved_from ..)]
      exact ih groups slot
    cases groups with
    | nil =>
      cases slot with
      | condition k => exact later [] (.condition k) [] _ rfl rfl
      | group k =>
        cases k with
        | zero => exact mem_places_own_group.trans Option.some_inj.symm
        | succ k => exact later [] (.group k) [] _ (by simp only [Path.moved, Nat.add_assoc, Nat.add_comm 1]) rfl
    | cons k below =>
      cases k with
      | zero =>
        rw [← Path.moved_inner around i, mem_places_inner (Path.moved_from ..)]
        exact ihinner below slot
      | succ k =>
        exact later (k :: below) slot ((k + 1) :: below) slot
          (by simp only [Path.moved, Nat.add_assoc, Nat.add_comm 1]) rfl

/-! ### Trees -/

end BucketQuery.Compile

namespace BucketQuery.Filter.Tree

open Compile (Path)

/-- All nodes of a tree with their paths, a group before what is in it. -/
def places (t : Tree) : List (Path × Node) := Compile.places [] 0 0 t.children

/-- All nodes of a tree with their paths, a group behind what is in it. -/
def closings (t : Tree) : List (Path × Node) := Compile.closings [] 0 0 t.children

/-- The node that a path leads to. -/
def at? (t : Tree) (p : Path) : Option Node := Compile.nodeAt? p.groups p.slot t.children

theorem mem_places_iff (t : Tree) (p : Path) (n : Node) : (p, n) ∈ t.places ↔ t.at? p = some n := by
  have h := Compile.mem_places_moved [] 0 0 t.children p.groups p.slot n
  rwa [Path.moved_outermost] at h

end BucketQuery.Filter.Tree

/-! ### Texts of paths -/

namespace BucketQuery.Compile.Path

/-- What stands between the brackets. -/
theorem groupText_chars (i : Nat) :
    (groupText i).toList = "groups[".toList ++ (Nat.toDigits 10 i ++ [']']) := by
  rw [groupText, String.toList_append, String.toList_append, List.append_assoc]
  exact congrArg ("groups[".toList ++ ·) (congrArg (· ++ [']']) Nat.toList_repr)

theorem conditionText_chars (i : Nat) :
    (slotText (.condition i)).toList = "conditions[".toList ++ (Nat.toDigits 10 i ++ [']']) := by
  rw [slotText, String.toList_append, String.toList_append, List.append_assoc]
  exact congrArg ("conditions[".toList ++ ·) (congrArg (· ++ [']']) Nat.toList_repr)

theorem toDigits_inj {m n : Nat} (h : Nat.toDigits 10 m = Nat.toDigits 10 n) : m = n := by
  rw [← Double.digitsValue_toDigits m, h, Double.digitsValue_toDigits]

theorem dot_not_mem_digits (i : Nat) : '.' ∉ Nat.toDigits 10 i := fun h =>
  absurd (Nat.isDigit_of_mem_toDigits (by decide) (by decide) h) (by decide)

theorem slotText_injective {s t : Slot} (h : slotText s = slotText t) : s = t := by
  rw [← String.toList_inj] at h
  cases s with
  | condition i =>
    cases t with
    | condition j =>
      rw [conditionText_chars, conditionText_chars] at h
      exact congrArg Slot.condition
        (toDigits_inj (List.append_cancel_right (List.append_cancel_left h)))
    | group j =>
      rw [conditionText_chars, slotText, groupText_chars] at h
      exact absurd (List.cons.inj h).1 (by decide)
  | group i =>
    cases t with
    | condition j =>
      rw [conditionText_chars, slotText, groupText_chars] at h
      exact absurd (List.cons.inj h).1 (by decide)
    | group j =>
      rw [slotText, slotText, groupText_chars, groupText_chars] at h
      exact congrArg Slot.group
        (toDigits_inj (List.append_cancel_right (List.append_cancel_left h)))

theorem slotText_dotless (s : Slot) : '.' ∉ (slotText s).toList := by
  cases s with
  | condition i =>
    rw [conditionText_chars, List.mem_append, List.mem_append]
    rintro (h | h | h)
    · exact absurd h (by decide)
    · exact dot_not_mem_digits i h
    · exact absurd h (by decide)
  | group i =>
    rw [slotText, groupText_chars, List.mem_append, List.mem_append]
    rintro (h | h | h)
    · exact absurd h (by decide)
    · exact dot_not_mem_digits i h
    · exact absurd h (by decide)

/-- A path is the slots that it goes through. -/
def slots (p : Path) : List Slot := p.groups.map .group ++ [p.slot]

theorem slots_injective {p q : Path} (h : p.slots = q.slots) : p = q := by
  obtain ⟨groups, slot⟩ := p
  obtain ⟨groups', slot'⟩ := q
  obtain ⟨hgroups, hslot⟩ := List.append_inj' h rfl
  have hg : groups = groups' := (List.map_injective_iff.mpr fun _ _ => Slot.group.inj) hgroups
  have hs : slot = slot' := (List.cons.inj hslot).1
  rw [hg, hs]

theorem text_eq (p : Path) : p.text = ".".intercalate (p.slots.map slotText) := by
  rw [text, slots, List.map_append, List.map_map]
  rfl

/-- Different paths have different texts. -/
theorem text_injective {p q : Path} (h : p.text = q.text) : p = q := by
  have segments (p : Path) :
      List.splitOn '.' p.text.toList = (p.slots.map slotText).map String.toList := by
    rw [text_eq, String.toList_intercalate]
    refine List.splitOn_intercalate '.' ?_ (by simp [slots])
    intro cs hcs
    obtain ⟨s, hs, rfl⟩ := List.mem_map.mp hcs
    obtain ⟨slot, _, rfl⟩ := List.mem_map.mp hs
    exact slotText_dotless slot
  have htexts := (segments p).symm.trans ((congrArg (List.splitOn '.' ·.toList) h).trans (segments q))
  apply slots_injective
  exact (List.map_injective_iff.mpr fun _ _ => slotText_injective)
    ((List.map_injective_iff.mpr fun _ _ => String.toList_inj.mp) htexts)

end BucketQuery.Compile.Path
