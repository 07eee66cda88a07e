import BucketQuery.Proofs.Compile.Places
import BucketQuery.Proofs.Compile.WhereText

/-! Every node of a filter tree is accounted for.

`fate` tells what becomes of a node from the node alone: a condition in reach is a leaf of the filter or
is dropped, a group in reach is a unit of the filter if a condition below it is emitted and is dropped
otherwise, a group one level further down is dropped for its depth, and what lies below that is
passed over. Main statement, `every_node_accounted`: read in order, the filter is the leaves and
units of the tree, the warnings are the dropped nodes, each named by a path of its own, and a
compile is not degraded exactly when the whole tree is in its filter. -/
namespace BucketQuery.Compile

open BucketQuery.Filter (Condition Connective Node Tree)
open Section (Query)
open Sql (Dialect Expr LiteralMode)

/-! ### Fates -/

/-- What becomes of a node. -/
inductive Fate where
  /-- It is one leaf of the filter. -/
  | leaf (e : Expr)
  /-- It is one unit of the filter, in parentheses. -/
  | unit
  | dropped (why : Drop)
  /-- It lies in a group that is dropped for its depth. -/
  | passedOver

/-- The groups around what is in the group at a path. -/
def Path.inside (p : Path) : List Nat :=
  match p.slot with
  | .condition _ => p.groups
  | .group j => p.groups ++ [j]

/-- The node is a condition, in reach, that compiles. -/
def emits (deepest : Nat) : Path × Node → Bool
  | (p, .condition c) => decide (p.groups.length ≤ deepest) && (condition c).isOk
  | (_, .group ..) => false

def fate (deepest : Nat) : Path × Node → Fate
  | (p, .condition c) =>
    if deepest < p.groups.length then .passedOver
    else match condition c with
      | .ok e => .leaf e
      | .error why => .dropped why
  | (p, .group _ children) =>
    if deepest < p.groups.length then .passedOver
    else if deepest = p.groups.length then .dropped (.tooDeep deepest)
    else if (places p.inside 0 0 children).any (emits deepest) then .unit
    else .dropped .emptyGroup

/-- A part of a filter. -/
inductive Part where
  | leaf (e : Expr)
  | unit

/-- The part that a node has in the filter, and the number of units around it. -/
def part? (deepest : Nat) (x : Path × Node) : Option (Nat × Part) :=
  match fate deepest x with
  | .leaf e => some (x.1.groups.length, .leaf e)
  | .unit => some (x.1.groups.length, .unit)
  | .dropped _ | .passedOver => none

/-- The warning that a node gets. -/
def warning? (deepest : Nat) (x : Path × Node) : Option Warning :=
  match fate deepest x with
  | .dropped why => some (.dropped x.1 why)
  | .leaf _ | .unit | .passedOver => none

/-! ### The parts of an expression -/

end BucketQuery.Compile

namespace BucketQuery.Sql.Expr

open Compile (Part)
open BucketQuery.Filter (Connective)

mutual

/-- The parts of an expression from left to right, a unit before what is in it, each with the number of
units around it. -/
def parts (level : Nat) : Expr → List (Nat × Part)
  | .nested e => (level, .unit) :: e.parts (level + 1)
  | .chain items => itemParts level items
  | .raw text => [(level, .leaf (.raw text))]
  | .compare column op v => [(level, .leaf (.compare column op v))]
  | .like column v negated => [(level, .leaf (.like column v negated))]
  | .between column low high negated => [(level, .leaf (.between column low high negated))]
  | .isNull column negated => [(level, .leaf (.isNull column negated))]
  | .inList column vs => [(level, .leaf (.inList column vs))]
  | .not e => [(level, .leaf (.not e))]

def itemParts (level : Nat) : List (Connective × Expr) → List (Nat × Part)
  | [] => []
  | (_, e) :: rest => e.parts level ++ itemParts level rest

end

theorem itemParts_eq (level : Nat) (items : List (Connective × Expr)) :
    itemParts level items = items.flatMap fun item => item.2.parts level := by
  induction items with
  | nil => rfl
  | cons item rest ih => rw [itemParts, ih, List.flatMap_cons]

end BucketQuery.Sql.Expr

namespace BucketQuery.Compile

open BucketQuery.Filter (Condition Connective Node Tree)
open Section (Query)
open Sql (Dialect Expr LiteralMode)

/-- A condition that compiles is one leaf. -/
theorem parts_condition {c : Condition} {e : Expr} (h : condition c = .ok e) (level : Nat) :
    e.parts level = [(level, .leaf e)] := by
  obtain ⟨op, _, _, ht⟩ := test_of_condition h
  obtain ⟨a, ha, he⟩ := test_of_ok ht
  rcases he with rfl | rfl
  · cases e with
    | nested e => cases ha
    | chain items => cases ha
    | _ => rfl
  · rfl

theorem parts_expr (em : Emitted) (level : Nat) :
    em.expr?.elim [] (Expr.parts level) = em.items.flatMap fun item => item.2.parts level := by
  unfold Emitted.expr?
  split
  · rename_i hitems
    rw [hitems]
    rfl
  · rename_i joins item hitems
    rw [hitems, List.flatMap_singleton]
    rfl
  · exact Expr.itemParts_eq level em.items

/-! ### What lies too deep -/

section Deep
variable {deepest : Nat} {around : List Nat} {i j : Nat} {ns : List Node} {x : Path × Node}

theorem Path.From.length_le {p : Path} (h : p.From around i j) : around.length ≤ p.groups.length := by
  rcases h with ⟨hg, _⟩ | ⟨hg, _⟩ | ⟨k, below, _, hg⟩
  · exact Nat.le_of_eq (congrArg List.length hg.symm)
  · exact Nat.le_of_eq (congrArg List.length hg.symm)
  · rw [hg, List.length_append]
    exact Nat.le_add_right _ _

theorem fate_deep (h : deepest < x.1.groups.length) : fate deepest x = .passedOver := by
  obtain ⟨p, n⟩ := x
  cases n with
  | condition c => exact if_pos h
  | group joins children => exact if_pos h

theorem emits_deep (h : deepest < x.1.groups.length) : emits deepest x = false := by
  obtain ⟨p, n⟩ := x
  cases n with
  | condition c =>
    have hout : decide (p.groups.length ≤ deepest) = false := decide_eq_false (Nat.not_le.mpr h)
    rw [emits, hout, Bool.false_and]
  | group joins children => rfl

theorem places_deep (h : deepest < around.length) (hx : x ∈ places around i j ns) :
    deepest < x.1.groups.length :=
  Nat.lt_of_lt_of_le h (places_from around i j ns x hx).length_le

/-- What is found in reach only is not found among nodes that lie too deep. -/
theorem filterMap_deep {α : Type} {f : Path × Node → Option α}
    (hf : ∀ x, deepest < x.1.groups.length → f x = none) (h : deepest < around.length) :
    (places around i j ns).filterMap f = [] :=
  List.filterMap_eq_nil_iff.mpr fun x hx => hf x (places_deep h hx)

theorem part_deep (h : deepest < around.length) :
    (places around i j ns).filterMap (part? deepest) = [] :=
  filterMap_deep (fun x hx => by rw [part?, fate_deep hx]) h

theorem warning_deep (h : deepest < around.length) :
    (closings around i j ns).filterMap (warning? deepest) = [] := by
  have hperm := (closings_perm around i j ns).filterMap (warning? deepest)
  rw [filterMap_deep (fun x hx => by rw [warning?, fate_deep hx]) h] at hperm
  exact hperm.eq_nil

theorem emits_none_deep (h : deepest < around.length) :
    (places around i j ns).any (emits deepest) = false := by
  rw [List.any_eq_false]
  intro x hx
  rw [emits_deep (places_deep h hx)]
  exact Bool.false_ne_true

/-- A node is passed over only if a group around it is dropped. -/
theorem dropped_of_passedOver (h : around.length ≤ deepest) (hx : x ∈ places around i j ns)
    (hpassed : fate deepest x = .passedOver) :
    ∃ y ∈ places around i j ns, ∃ why, fate deepest y = .dropped why := by
  fun_induction places around i j ns with
  | case1 => exact absurd hx List.not_mem_nil
  | case2 around i j c rest ih =>
    rcases List.mem_cons.mp hx with rfl | hx
    · rw [fate, if_neg (Nat.not_lt.mpr h)] at hpassed
      split at hpassed <;> cases hpassed
    · obtain ⟨y, hy, hwhy⟩ := ih h hx
      exact ⟨y, List.mem_cons_of_mem _ hy, hwhy⟩
  | case3 around i j joins children rest ihinner ih =>
    by_cases hdeep : deepest = around.length
    · refine ⟨_, List.mem_cons_self, .tooDeep deepest, ?_⟩
      rw [fate, if_neg (Nat.not_lt.mpr h), if_pos hdeep]
    · rcases List.mem_cons.mp hx with rfl | hx
      · rw [fate, if_neg (Nat.not_lt.mpr h), if_neg hdeep] at hpassed
        split at hpassed <;> cases hpassed
      · rcases List.mem_append.mp hx with hx | hx
        · have hinside : (around ++ [j]).length ≤ deepest :=
            length_inside around j ▸ Nat.lt_of_le_of_ne h fun hd => hdeep hd.symm
          obtain ⟨y, hy, hwhy⟩ := ihinner hinside hx
          exact ⟨y, List.mem_cons_of_mem _ (List.mem_append_left _ hy), hwhy⟩
        · obtain ⟨y, hy, hwhy⟩ := ih h hx
          exact ⟨y, List.mem_cons_of_mem _ (List.mem_append_right _ hy), hwhy⟩

end Deep

/-! ### Siblings -/

/-- Siblings emit something exactly when a condition among or below them is emitted. -/
theorem items_isEmpty {deepest : Nat} {around : List Nat} (h : around.length ≤ deepest) (i j : Nat)
    (ns : List Node) :
    (nodes deepest around i j ns).items.isEmpty = !(places around i j ns).any (emits deepest) := by
  fun_induction nodes deepest around i j ns with
  | case1 =>
    rw [places]
    rfl
  | case2 around i j c rest later e hok ih =>
    have hemits : emits deepest (⟨around, .condition i⟩, .condition c) = true := by
      rw [emits, decide_eq_true h, hok]
      rfl
    rw [places, List.any_cons, hemits]
    rfl
  | case3 around i j c rest later why herr ih =>
    have hemits : emits deepest (⟨around, .condition i⟩, .condition c) = false := by
      rw [emits, herr]
      exact Bool.and_false _
    rw [places, List.any_cons, hemits, Bool.false_or]
    exact ih h
  | case4 around i j joins children rest later path hdeep ih =>
    have hinside : deepest < (around ++ [j]).length :=
      length_inside around j ▸ Nat.lt_succ_of_le hdeep
    rw [places, List.any_cons, List.any_append, emits_none_deep hinside, emits, Bool.false_or,
      Bool.false_or]
    exact ih h
  | case5 around i j joins children rest later hdeep inner e he ih ihinner =>
    have hinside : (around ++ [j]).length ≤ deepest :=
      length_inside around j ▸ Nat.lt_of_not_le hdeep
    have hany : (places (around ++ [j]) 0 0 children).any (emits deepest) = true := by
      rw [← Bool.not_eq_false', ← ihinner hinside, List.isEmpty_eq_false_iff]
      exact items_of_expr_some he
    rw [places, List.any_cons, List.any_append, hany, emits, Bool.false_or, Bool.true_or]
    rfl
  | case6 around i j joins children rest later path hdeep inner he ih ihinner =>
    have hinside : (around ++ [j]).length ≤ deepest :=
      length_inside around j ▸ Nat.lt_of_not_le hdeep
    have hnone : (places (around ++ [j]) 0 0 children).any (emits deepest) = false := by
      rw [← Bool.not_eq_true', ← ihinner hinside, List.isEmpty_iff]
      exact items_of_expr_none he
    rw [places, List.any_cons, List.any_append, hnone, emits, Bool.false_or, Bool.false_or]
    exact ih h

/-- What siblings emit and warn of, node by node. -/
theorem nodes_account {deepest : Nat} {around : List Nat} (h : around.length ≤ deepest) (i j : Nat)
    (ns : List Node) :
    ((nodes deepest around i j ns).items.flatMap fun item => item.2.parts around.length) =
        (places around i j ns).filterMap (part? deepest) ∧
      (nodes deepest around i j ns).warnings =
        (closings around i j ns).filterMap (warning? deepest) := by
  fun_induction nodes deepest around i j ns with
  | case1 =>
    rw [places, closings]
    exact ⟨rfl, rfl⟩
  | case2 around i j c rest later e hok ih =>
    have hfate : fate deepest (⟨around, .condition i⟩, .condition c) = .leaf e := by
      rw [fate, if_neg (Nat.not_lt.mpr h), hok]
    obtain ⟨hitems, hwarnings⟩ := ih h
    rw [places, closings, List.filterMap_cons, List.filterMap_cons, part?, warning?, hfate, ← hitems,
      ← hwarnings]
    refine ⟨?_, rfl⟩
    show e.parts around.length ++ _ = _
    rw [parts_condition hok]
    rfl
  | case3 around i j c rest later why herr ih =>
    have hfate : fate deepest (⟨around, .condition i⟩, .condition c) = .dropped why := by
      rw [fate, if_neg (Nat.not_lt.mpr h), herr]
    obtain ⟨hitems, hwarnings⟩ := ih h
    rw [places, closings, List.filterMap_cons, List.filterMap_cons, part?, warning?, hfate, ← hitems,
      ← hwarnings]
    exact ⟨rfl, rfl⟩
  | case4 around i j joins children rest later path hdeep ih =>
    have hinside : deepest < (around ++ [j]).length :=
      length_inside around j ▸ Nat.lt_succ_of_le hdeep
    have hfate : fate deepest (⟨around, .group j⟩, .group joins children) =
        .dropped (.tooDeep deepest) := by
      rw [fate, if_neg (Nat.not_lt.mpr h), if_pos (Nat.le_antisymm hdeep h)]
    obtain ⟨hitems, hwarnings⟩ := ih h
    rw [places, closings, List.filterMap_cons, List.filterMap_append, List.filterMap_append,
      List.filterMap_cons, part_deep hinside, warning_deep hinside, part?, warning?, hfate, ← hitems,
      ← hwarnings]
    exact ⟨rfl, rfl⟩
  | case5 around i j joins children rest later hdeep inner e he ih ihinner =>
    have hinside : (around ++ [j]).length ≤ deepest :=
      length_inside around j ▸ Nat.lt_of_not_le hdeep
    have hany : (places (around ++ [j]) 0 0 children).any (emits deepest) = true := by
      rw [← Bool.not_eq_false', ← items_isEmpty hinside, List.isEmpty_eq_false_iff]
      exact items_of_expr_some he
    have hfate : fate deepest (⟨around, .group j⟩, .group joins children) = .unit := by
      rw [fate, if_neg (Nat.not_lt.mpr h), if_neg fun hd => hdeep (Nat.le_of_eq hd), Path.inside, hany]
      rfl
    obtain ⟨hitems, hwarnings⟩ := ih h
    obtain ⟨hinnerItems, hinnerWarnings⟩ := ihinner hinside
    have hparts : e.parts (around.length + 1) =
        (places (around ++ [j]) 0 0 children).filterMap (part? deepest) := by
      rw [← hinnerItems, length_inside, ← parts_expr, he]
      rfl
    rw [places, closings, List.filterMap_cons, List.filterMap_append, List.filterMap_append,
      List.filterMap_cons, part?, warning?, hfate, ← hitems, ← hparts, ← hwarnings, ← hinnerWarnings]
    exact ⟨rfl, rfl⟩
  | case6 around i j joins children rest later path hdeep inner he ih ihinner =>
    have hinside : (around ++ [j]).length ≤ deepest :=
      length_inside around j ▸ Nat.lt_of_not_le hdeep
    have hempty := items_of_expr_none he
    have hnone : (places (around ++ [j]) 0 0 children).any (emits deepest) = false := by
      rw [← Bool.not_eq_true', ← items_isEmpty hinside, List.isEmpty_iff]
      exact hempty
    have hfate : fate deepest (⟨around, .group j⟩, .group joins children) = .dropped .emptyGroup := by
      rw [fate, if_neg (Nat.not_lt.mpr h), if_neg fun hd => hdeep (Nat.le_of_eq hd), Path.inside, hnone]
      rfl
    obtain ⟨hitems, hwarnings⟩ := ih h
    obtain ⟨hinnerItems, hinnerWarnings⟩ := ihinner hinside
    rw [hempty] at hinnerItems
    rw [places, closings, List.filterMap_cons, List.filterMap_append, List.filterMap_append,
      List.filterMap_cons, part?, warning?, hfate, ← hitems, ← hinnerItems, ← hwarnings,
      ← hinnerWarnings]
    exact ⟨rfl, rfl⟩

/-! ### Trees -/

theorem mem_closings {t : Tree} {x : Path × Node} : x ∈ t.closings ↔ x ∈ t.places :=
  (closings_perm [] 0 0 t.children).mem_iff

/-- A warning of a tree is for one dropped node, which its path leads to. -/
theorem dropped_of_warning {deepest : Nat} {t : Tree} {w : Warning}
    (h : w ∈ t.closings.filterMap (warning? deepest)) :
    ∃ p n why, w = .dropped p why ∧ t.at? p = some n ∧ fate deepest (p, n) = .dropped why := by
  obtain ⟨⟨p, n⟩, hx, hw⟩ := List.mem_filterMap.mp h
  have hplace := (t.mem_places_iff p n).mp (mem_closings.mp hx)
  unfold warning? at hw
  split at hw
  · rename_i why hfate
    cases hw
    exact ⟨p, n, why, rfl, hplace, hfate⟩
  · cases hw
  · cases hw
  · cases hw

/-- The paths that the warnings of a tree name are paths of its nodes, in order. -/
theorem namedPaths_sublist (deepest : Nat) (xs : List (Path × Node)) :
    (namedPaths (xs.filterMap (warning? deepest))).Sublist (xs.map Prod.fst) := by
  induction xs with
  | nil => exact .slnil
  | cons x xs ih =>
    rw [List.map_cons]
    cases hw : warning? deepest x with
    | none =>
      rw [List.filterMap_cons_none hw]
      exact ih.cons _
    | some w =>
      have hpath : w.path? = some x.1 := by
        unfold warning? at hw
        split at hw
        · cases hw
          rfl
        · cases hw
        · cases hw
        · cases hw
      rw [List.filterMap_cons_some hw, namedPaths, List.filterMap_cons_some hpath]
      exact ih.cons_cons _

/-- No two warnings of a tree share the text of a path. -/
theorem warnings_nodup (deepest : Nat) (t : Tree) :
    ((namedPaths (t.closings.filterMap (warning? deepest))).map Path.text).Nodup := by
  have hpaths : (t.closings.map Prod.fst).Nodup :=
    ((closings_perm [] 0 0 t.children).map Prod.fst).nodup_iff.mpr (places_nodup [] 0 0 t.children)
  exact List.Pairwise.map Path.text (fun _ _ hne htext => hne (Path.text_injective htext))
    ((namedPaths_sublist deepest t.closings).nodup hpaths)

/-- A tree without warnings is in its filter as a whole. -/
theorem warnings_eq_nil_iff (deepest : Nat) (t : Tree) :
    t.closings.filterMap (warning? deepest) = [] ↔
      ∀ x ∈ t.places, (part? deepest x).isSome = true := by
  rw [List.filterMap_eq_nil_iff]
  refine ⟨fun h x hx => ?_, fun h x hx => ?_⟩
  · have hdropped (y) (hy : y ∈ t.places) (why) : fate deepest y ≠ .dropped why := by
      intro hfate
      have := h y (mem_closings.mpr hy)
      rw [warning?, hfate] at this
      cases this
    unfold part?
    split
    · rfl
    · rfl
    · rename_i why hfate
      exact absurd hfate (hdropped x hx why)
    · rename_i hfate
      obtain ⟨y, hy, why, hfate⟩ := dropped_of_passedOver (Nat.zero_le _) hx hfate
      exact absurd hfate (hdropped y hy why)
  · have hpart := h x (mem_closings.mp hx)
    unfold part? at hpart
    unfold warning?
    split
    · rename_i hfate
      rw [hfate] at hpart
      cases hpart
    · rfl
    · rfl
    · rfl

theorem tree_account (deepest : Nat) (t : Tree) :
    ((nodes deepest [] 0 0 t.children).items.flatMap fun item => item.2.parts 0) =
        t.places.filterMap (part? deepest) ∧
      (tree deepest t).2 = t.closings.filterMap (warning? deepest) :=
  have h : ([] : List Nat).length ≤ deepest := Nat.zero_le deepest
  nodes_account h 0 0 t.children

theorem tree_warnings (deepest : Nat) (t : Tree) :
    (tree deepest t).2 = t.closings.filterMap (warning? deepest) :=
  (tree_account deepest t).2

section Compiled
variable {c : Compiler} {mode : LiteralMode} {d : Dialect} {q : Query} {t : Tree} {out : Compiled}

theorem advanced_tree {s : CompilerSettings} (hq : q.advanced = some (.tree t)) :
    advanced s q.advanced = .ok ((tree s.maxGroupDepth t).1, (tree s.maxGroupDepth t).2) := by
  rw [hq]
  rfl

theorem filterSql_of_tree (hq : q.advanced = some (.tree t)) (h : c.compileWith mode d q = .ok out) :
    out.filterSql = (tree c.settings.maxGroupDepth t).1.map fun e => (e.render d .inline).sql := by
  obtain ⟨p, hp, rfl⟩ := compiled_of_ok c q h
  obtain ⟨g, fallback, filter, dropped, _, ha, rfl⟩ := plan_of_ok c q hp
  rw [advanced_tree hq] at ha
  cases ha
  rfl

/-- Only what is dropped from the tree degrades a compile. -/
theorem degraded_iff (hq : q.advanced = some (.tree t)) (h : c.compileWith mode d q = .ok out) :
    out.degraded = false ↔ (tree c.settings.maxGroupDepth t).2 = [] := by
  obtain ⟨p, hp, rfl⟩ := compiled_of_ok c q h
  have hwidens (w : Warning) : w.widensFilter = w.path?.isSome := by cases w <;> rfl
  have hnamed : (p.compiled mode d).degraded = false ↔ namedPaths p.warnings = [] := by
    rw [Compiled.degraded, List.any_eq_false, namedPaths, List.filterMap_eq_nil_iff]
    refine forall₂_congr fun w _ => ?_
    rw [hwidens, Bool.not_eq_true, Option.isSome_eq_false_iff, Option.isNone_iff_eq_none]
  rw [hnamed, plan_namedPaths hp (advanced_tree hq), tree_warnings, namedPaths,
    List.filterMap_eq_nil_iff]
  refine ⟨fun hnone => List.eq_nil_iff_forall_not_mem.mpr fun w hw => ?_, fun hnil w hw => ?_⟩
  · obtain ⟨path, n, why, rfl, _⟩ := dropped_of_warning hw
    cases hnone _ hw
  · rw [hnil] at hw
    exact absurd hw List.not_mem_nil

end Compiled

/-- **Every node is accounted for.** Read from left to right, the filter of a tree is its nodes that are
not dropped, in the order of the document and each at its depth: a leaf for a condition, a unit for a
group. The warnings are one for each node that is dropped, a group's behind those below it; the
path of a warning leads to the node dropped, and no other warning has its text. A compile is
degraded unless every condition and every group of the tree is in the filter. -/
theorem every_node_accounted (deepest : Nat) (t : Tree) :
    (tree deepest t).1.elim [] (Expr.parts 0) = t.places.filterMap (part? deepest) ∧
    (tree deepest t).2 = t.closings.filterMap (warning? deepest) ∧
    t.closings.Perm t.places ∧
    (∀ p n, (p, n) ∈ t.places ↔ t.at? p = some n) ∧
    (t.places.map Prod.fst).Nodup ∧
    (∀ w ∈ (tree deepest t).2,
      ∃ p n why, w = .dropped p why ∧ t.at? p = some n ∧ fate deepest (p, n) = .dropped why) ∧
    ((namedPaths (tree deepest t).2).map Path.text).Nodup ∧
    ∀ (c : Compiler) (mode : LiteralMode) (d : Dialect) (q : Query) (out : Compiled),
      c.settings.maxGroupDepth = deepest → q.advanced = some (.tree t) →
      c.compileWith mode d q = .ok out →
      out.filterSql = (tree deepest t).1.map (fun e => (e.render d .inline).sql) ∧
      (out.degraded = false ↔ ∀ x ∈ t.places, (part? deepest x).isSome = true) := by
  have hw := tree_warnings deepest t
  refine ⟨?_, hw, closings_perm [] 0 0 t.children, t.mem_places_iff, places_nodup [] 0 0 t.children,
    fun w h => dropped_of_warning (hw ▸ h), hw ▸ warnings_nodup deepest t, ?_⟩
  · exact (parts_expr _ 0).trans (tree_account deepest t).1
  · rintro c mode d q out rfl hq h
    refine ⟨filterSql_of_tree hq h, ?_⟩
    rw [degraded_iff hq h, hw, warnings_eq_nil_iff]

end BucketQuery.Compile
