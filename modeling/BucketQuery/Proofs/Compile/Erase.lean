import BucketQuery.Compile.Tree
import BucketQuery.Proofs.Compile.Columns
import BucketQuery.Proofs.Filter.WellFormed

/-! A tree without the nodes that warnings name.

Warnings name nodes by their paths. What a compile says of some siblings concerns paths at and below
them only (`nodes_from`), so of the siblings' own paths exactly those are named that it has dropped.
Main statement, `eraseTree_eq_kept`: what is left of a tree once the named nodes are erased is what
compiles to something, so each condition that is left compiles (`kept_compiles`). -/
namespace BucketQuery.Compile

open BucketQuery.Filter (Condition Connective Node Tree)
open Sql (Expr)

/-! ### Erasing -/

def Warning.path? : Warning → Option Path
  | .dropped path _ => some path
  | .unknownGranularity _ | .invalidIdentifier .. | .invertedDates .. => none

/-- The nodes that warnings name. -/
def namedPaths (ws : List Warning) : List Path := ws.filterMap Warning.path?

/-- The siblings that are not named, and of those what is left of them. `around`, `conditions` and
`groups` tell paths as they do where the siblings are compiled. -/
def eraseAll (named : List Path) (around : List Nat) : (conditions groups : Nat) → List Node → List Node
  | _, _, [] => []
  | i, j, .condition c :: rest =>
    let later := eraseAll named around (i + 1) j rest
    if ⟨around, .condition i⟩ ∈ named then later else .condition c :: later
  | i, j, .group joins children :: rest =>
    let later := eraseAll named around i (j + 1) rest
    if ⟨around, .group j⟩ ∈ named then later
    else .group joins (eraseAll named (around ++ [j]) 0 0 children) :: later

/-- What is left of a tree without the nodes that warnings name. -/
def eraseTree (ws : List Warning) (t : Tree) : Tree := ⟨eraseAll (namedPaths ws) [] 0 0 t.children⟩

/-! ### Paths of siblings -/

/-- The path is of a sibling from the `i`-th condition or the `j`-th group on, or below one. -/
def Path.From (around : List Nat) (i j : Nat) (p : Path) : Prop :=
  (p.groups = around ∧ ∃ k, i ≤ k ∧ p.slot = .condition k) ∨
    (p.groups = around ∧ ∃ k, j ≤ k ∧ p.slot = .group k) ∨
    ∃ k below, j ≤ k ∧ p.groups = around ++ k :: below

namespace Path
variable {around : List Nat} {i j : Nat} {p : Path}

theorem from_of_later_condition (h : p.From around (i + 1) j) : p.From around i j := by
  rcases h with ⟨hg, k, hk, hs⟩ | h
  · exact .inl ⟨hg, k, by omega, hs⟩
  · exact .inr h

theorem from_of_later_group (h : p.From around i (j + 1)) : p.From around i j := by
  rcases h with h | ⟨hg, k, hk, hs⟩ | ⟨k, below, hk, hg⟩
  · exact .inl h
  · exact .inr (.inl ⟨hg, k, by omega, hs⟩)
  · exact .inr (.inr ⟨k, below, by omega, hg⟩)

/-- What is in a group lies below it. -/
theorem groups_of_inner (h : p.From (around ++ [j]) 0 0) : ∃ below, p.groups = around ++ j :: below := by
  rcases h with ⟨hg, _⟩ | ⟨hg, _⟩ | ⟨k, below, _, hg⟩
  · exact ⟨[], hg⟩
  · exact ⟨[], hg⟩
  · exact ⟨k :: below, by rw [hg, List.append_assoc]; rfl⟩

theorem from_of_inner (h : p.From (around ++ [j]) 0 0) : p.From around i j := by
  obtain ⟨below, hg⟩ := groups_of_inner h
  exact .inr (.inr ⟨j, below, Nat.le_refl j, hg⟩)

theorem own_condition_from : Path.From around i j ⟨around, .condition i⟩ :=
  .inl ⟨rfl, i, Nat.le_refl i, rfl⟩

theorem own_group_from : Path.From around i j ⟨around, .group j⟩ :=
  .inr (.inl ⟨rfl, j, Nat.le_refl j, rfl⟩)

theorem own_condition_not_later : ¬Path.From around (i + 1) j ⟨around, .condition i⟩ := by
  rintro (⟨_, k, hk, hs⟩ | ⟨_, k, _, hs⟩ | ⟨k, below, _, hg⟩)
  · cases hs
    omega
  · cases hs
  · exact absurd hg.symm (by simp)

theorem own_group_not_later : ¬Path.From around i (j + 1) ⟨around, .group j⟩ := by
  rintro (⟨_, k, _, hs⟩ | ⟨_, k, hk, hs⟩ | ⟨k, below, _, hg⟩)
  · cases hs
  · cases hs
    omega
  · exact absurd hg.symm (by simp)

theorem own_group_not_inner : ¬Path.From (around ++ [j]) 0 0 ⟨around, .group j⟩ := by
  intro h
  obtain ⟨below, hg⟩ := groups_of_inner h
  exact absurd hg.symm (by simp)

/-- What is in a group is not of a later sibling. -/
theorem inner_not_later (h : p.From (around ++ [j]) 0 0) : ¬p.From around i (j + 1) := by
  obtain ⟨below, hg⟩ := groups_of_inner h
  rintro (⟨hg', _⟩ | ⟨hg', _⟩ | ⟨k, below', hk, hg'⟩)
  · exact absurd (hg.symm.trans hg') (by simp)
  · exact absurd (hg.symm.trans hg') (by simp)
  · have := (List.cons.inj (List.append_cancel_left (hg.symm.trans hg'))).1
    omega

end Path

/-- A compile of siblings warns of paths at and below them only. -/
theorem nodes_from (deepest : Nat) (around : List Nat) (i j : Nat) (ns : List Node) :
    ∀ p ∈ namedPaths (nodes deepest around i j ns).warnings, p.From around i j := by
  fun_induction nodes deepest around i j ns with
  | case1 => exact fun p hp => absurd hp List.not_mem_nil
  | case2 around i j c rest later e hok ih =>
    exact fun p hp => Path.from_of_later_condition (ih p hp)
  | case3 around i j c rest later why herr ih =>
    intro p hp
    rcases List.mem_cons.mp hp with rfl | hp
    · exact Path.own_condition_from
    · exact Path.from_of_later_condition (ih p hp)
  | case4 around i j joins children rest later path hdeep ih =>
    intro p hp
    rcases List.mem_cons.mp hp with rfl | hp
    · exact Path.own_group_from
    · exact Path.from_of_later_group (ih p hp)
  | case5 around i j joins children rest later hdeep inner e he ih ihinner =>
    intro p hp
    rw [namedPaths, List.filterMap_append] at hp
    rcases List.mem_append.mp hp with hp | hp
    · exact Path.from_of_inner (ihinner p hp)
    · exact Path.from_of_later_group (ih p hp)
  | case6 around i j joins children rest later path hdeep inner he ih ihinner =>
    intro p hp
    rw [namedPaths, List.filterMap_append] at hp
    rcases List.mem_append.mp hp with hp | hp
    · exact Path.from_of_inner (ihinner p hp)
    · rcases List.mem_cons.mp hp with rfl | hp
      · exact Path.own_group_from
      · exact Path.from_of_later_group (ih p hp)

/-! ### What is kept -/

/-- What is left of siblings without the nodes that compile to nothing; `level` counts the groups around
them. -/
def kept (deepest : Nat) : (level : Nat) → List Node → List Node
  | _, [] => []
  | level, .condition c :: rest =>
    let later := kept deepest level rest
    match condition c with
    | .ok _ => .condition c :: later
    | .error _ => later
  | level, .group joins children :: rest =>
    let later := kept deepest level rest
    if deepest ≤ level then later
    else match kept deepest (level + 1) children with
      | [] => later
      | n :: more => .group joins (n :: more) :: later

section Kept
variable {deepest level : Nat}

theorem kept_condition_ok {c : Condition} {e : Expr} (h : condition c = .ok e) (rest : List Node) :
    kept deepest level (.condition c :: rest) = .condition c :: kept deepest level rest := by
  rw [kept, h]

theorem kept_condition_error {c : Condition} {why : Drop} (h : condition c = .error why)
    (rest : List Node) : kept deepest level (.condition c :: rest) = kept deepest level rest := by
  rw [kept, h]

theorem kept_group_deep (h : deepest ≤ level) (joins : Connective) (children rest : List Node) :
    kept deepest level (.group joins children :: rest) = kept deepest level rest := by
  rw [kept, if_pos h]

theorem kept_group_empty {children : List Node} (h : kept deepest (level + 1) children = [])
    (joins : Connective) (rest : List Node) :
    kept deepest level (.group joins children :: rest) = kept deepest level rest := by
  rw [kept, h, ite_self]

theorem kept_group {children : List Node} (hdeep : ¬ deepest ≤ level)
    (h : kept deepest (level + 1) children ≠ []) (joins : Connective) (rest : List Node) :
    kept deepest level (.group joins children :: rest) =
      .group joins (kept deepest (level + 1) children) :: kept deepest level rest := by
  rw [kept, if_neg hdeep]
  split
  · rename_i hnil
    exact absurd hnil h
  · rename_i n more hmore
    rw [hmore]

theorem kept_compiles (deepest level : Nat) (ns : List Node) :
    Node.EveryIn (fun c => ∃ e, condition c = .ok e) (kept deepest level ns) := by
  fun_induction kept deepest level ns with
  | case1 => trivial
  | case2 level c rest later e hok ih => exact ⟨⟨e, hok⟩, ih⟩
  | case3 level c rest later why herr ih => exact ih
  | case4 level joins children rest later hdeep ih => exact ih
  | case5 level joins children rest later hdeep hnil ih ihinner => exact ih
  | case6 level joins children rest later hdeep n more hmore ih ihinner => exact ⟨hmore ▸ ihinner, ih⟩

theorem length_inside (around : List Nat) (j : Nat) : (around ++ [j]).length = around.length + 1 := by
  rw [List.length_append, List.length_singleton]

theorem items_of_expr_none {em : Emitted} (h : em.expr? = none) : em.items = [] := by
  unfold Emitted.expr? at h
  split at h
  · assumption
  · cases h
  · cases h

theorem items_of_expr_some {em : Emitted} {e : Expr} (h : em.expr? = some e) : em.items ≠ [] := by
  intro hnil
  rw [Emitted.expr?, hnil] at h
  cases h

/-- Siblings of which nothing is kept are those that emit nothing. -/
theorem kept_eq_nil_iff (around : List Nat) (i j : Nat) (ns : List Node) :
    kept deepest around.length ns = [] ↔ (nodes deepest around i j ns).items = [] := by
  fun_induction nodes deepest around i j ns with
  | case1 =>
    rw [kept]
    exact iff_of_true rfl rfl
  | case2 around i j c rest later e hok ih =>
    rw [kept_condition_ok hok]
    exact iff_of_false (List.cons_ne_nil _ _) (List.cons_ne_nil _ _)
  | case3 around i j c rest later why herr ih =>
    rw [kept_condition_error herr]
    exact ih
  | case4 around i j joins children rest later path hdeep ih =>
    rw [kept_group_deep hdeep]
    exact ih
  | case5 around i j joins children rest later hdeep inner e he ih ihinner =>
    rw [length_inside] at ihinner
    rw [kept_group hdeep (mt ihinner.mp (items_of_expr_some he))]
    exact iff_of_false (List.cons_ne_nil _ _) (List.cons_ne_nil _ _)
  | case6 around i j joins children rest later path hdeep inner he ih ihinner =>
    rw [length_inside] at ihinner
    rw [kept_group_empty (ihinner.mpr (items_of_expr_none he))]
    exact ih

/-- A group of which nothing is kept is one whose children are no expression. -/
theorem kept_inner_eq_nil_iff (around : List Nat) (j : Nat) (children : List Node) :
    kept deepest (around.length + 1) children = [] ↔
      (nodes deepest (around ++ [j]) 0 0 children).expr? = none := by
  rw [← length_inside around j, kept_eq_nil_iff (around ++ [j]) 0 0]
  refine ⟨fun h => ?_, items_of_expr_none⟩
  rw [Emitted.expr?, h]

theorem kept_inner_ne_nil {around : List Nat} {j : Nat} {children : List Node} {e : Expr}
    (h : (nodes deepest (around ++ [j]) 0 0 children).expr? = some e) :
    kept deepest (around.length + 1) children ≠ [] := by
  rw [ne_eq, kept_inner_eq_nil_iff around j, h]
  exact Option.some_ne_none e

end Kept

/-- Where a list names exactly those paths of some siblings that their compile warns of, what is left of
the siblings is what compiles to something. -/
theorem eraseAll_eq_kept {named : List Path} (deepest : Nat) (around : List Nat) (i j : Nat)
    (ns : List Node) (h : ∀ p : Path, p.From around i j →
      (p ∈ named ↔ p ∈ namedPaths (nodes deepest around i j ns).warnings)) :
    eraseAll named around i j ns = kept deepest around.length ns := by
  fun_induction nodes deepest around i j ns with
  | case1 => rw [eraseAll, kept]
  | case2 around i j c rest later e hok ih =>
    have hlater := nodes_from deepest around (i + 1) j rest
    have hown : ⟨around, .condition i⟩ ∉ named := fun hm =>
      Path.own_condition_not_later (hlater _ ((h _ Path.own_condition_from).mp hm))
    rw [eraseAll, if_neg hown, kept_condition_ok hok,
      ih fun p hp => h p (Path.from_of_later_condition hp)]
  | case3 around i j c rest later why herr ih =>
    have hown : ⟨around, .condition i⟩ ∈ named :=
      (h _ Path.own_condition_from).mpr List.mem_cons_self
    rw [eraseAll, if_pos hown, kept_condition_error herr]
    refine ih fun p hp => (h p (Path.from_of_later_condition hp)).trans ?_
    refine ⟨fun hm => (List.mem_cons.mp hm).resolve_left ?_, List.mem_cons_of_mem _⟩
    rintro rfl
    exact Path.own_condition_not_later hp
  | case4 around i j joins children rest later path hdeep ih =>
    have hown : ⟨around, .group j⟩ ∈ named := (h _ Path.own_group_from).mpr List.mem_cons_self
    rw [eraseAll, if_pos hown, kept_group_deep hdeep]
    refine ih fun p hp => (h p (Path.from_of_later_group hp)).trans ?_
    refine ⟨fun hm => (List.mem_cons.mp hm).resolve_left ?_, List.mem_cons_of_mem _⟩
    rintro rfl
    exact Path.own_group_not_later hp
  | case5 around i j joins children rest later hdeep inner e he ih ihinner =>
    have hlater := nodes_from deepest around i (j + 1) rest
    have hinner := nodes_from deepest (around ++ [j]) 0 0 children
    simp only [namedPaths, List.filterMap_append, List.mem_append] at h
    have hown : ⟨around, .group j⟩ ∉ named := fun hm =>
      ((h _ Path.own_group_from).mp hm).elim (fun hm => Path.own_group_not_inner (hinner _ hm))
        fun hm => Path.own_group_not_later (hlater _ hm)
    have ih := ih fun p hp => (h p (Path.from_of_later_group hp)).trans
      ⟨fun hm => hm.resolve_left fun hm => Path.inner_not_later (hinner p hm) hp, .inr⟩
    have ihinner := ihinner fun p hp => (h p (Path.from_of_inner hp)).trans
      ⟨fun hm => hm.resolve_right fun hm => Path.inner_not_later hp (hlater p hm), .inl⟩
    rw [length_inside] at ihinner
    rw [eraseAll, if_neg hown, kept_group hdeep (kept_inner_ne_nil he), ih, ihinner]
  | case6 around i j joins children rest later path hdeep inner he ih ihinner =>
    have hinner := nodes_from deepest (around ++ [j]) 0 0 children
    simp only [namedPaths, List.filterMap_append, List.mem_append] at h
    have hown : ⟨around, .group j⟩ ∈ named :=
      (h _ Path.own_group_from).mpr (.inr List.mem_cons_self)
    rw [eraseAll, if_pos hown, kept_group_empty ((kept_inner_eq_nil_iff ..).mpr he)]
    refine ih fun p hp => (h p (Path.from_of_later_group hp)).trans
      ⟨fun hm => ?_, fun hm => .inr (List.mem_cons_of_mem _ hm)⟩
    rcases hm with hm | hm
    · exact absurd hp (Path.inner_not_later (hinner p hm))
    · refine (List.mem_cons.mp hm).resolve_left ?_
      rintro rfl
      exact Path.own_group_not_later hp

/-- Where warnings name the nodes that a tree's compile warns of, what is left of the tree compiles. -/
theorem eraseTree_eq_kept {ws : List Warning} {deepest : Nat} {t : Tree}
    (h : namedPaths ws = namedPaths (tree deepest t).2) : eraseTree ws t = ⟨kept deepest 0 t.children⟩ := by
  have hnamed (p : Path) (_ : p.From [] 0 0) :
      p ∈ namedPaths ws ↔ p ∈ namedPaths (nodes deepest [] 0 0 t.children).warnings := by
    rw [h]
    rfl
  exact congrArg Tree.mk (eraseAll_eq_kept deepest [] 0 0 t.children hnamed)

end BucketQuery.Compile
