import BucketQuery.Proofs.Compile.Erase

/-! Nodes that have no part in a filter.

A node is idle if it is a condition that does not compile, a group that lies too deep, or a group of
nothing but idle nodes. Idle nodes are those that a compile drops (`kept_eq_nil_iff_idle`), so putting
them in among siblings, at any place and depth, or taking them out changes nothing of what is emitted.
Main statement, `dropped_without_influence`: a tree without the nodes that warnings name compiles to the
same expression and to no warnings. -/
namespace BucketQuery.Compile

open BucketQuery.Filter (Condition Connective Node Tree)

/-- With `level` groups around it, a node adds nothing to the filter. -/
inductive Idle (deepest : Nat) : (level : Nat) → Node → Prop where
  | condition {level : Nat} {c : Condition} {why : Drop} (dropped : condition c = .error why) :
    Idle deepest level (.condition c)
  | tooDeep {level : Nat} {joins : Connective} {children : List Node} (deep : deepest ≤ level) :
    Idle deepest level (.group joins children)
  | empty {level : Nat} {joins : Connective} {children : List Node}
    (idle : ∀ n ∈ children, Idle deepest (level + 1) n) : Idle deepest level (.group joins children)

/-- The second siblings are the first ones with idle nodes put in, among them or anywhere below. -/
inductive Padded (deepest : Nat) : (level : Nat) → List Node → List Node → Prop where
  | nil {level : Nat} : Padded deepest level [] []
  | condition {level : Nat} {ns ms : List Node} (c : Condition) (rest : Padded deepest level ns ms) :
    Padded deepest level (.condition c :: ns) (.condition c :: ms)
  | group {level : Nat} {children padded ns ms : List Node} (joins : Connective)
    (inner : Padded deepest (level + 1) children padded) (rest : Padded deepest level ns ms) :
    Padded deepest level (.group joins children :: ns) (.group joins padded :: ms)
  | insert {level : Nat} {n : Node} {ns ms : List Node} (idle : Idle deepest level n)
    (rest : Padded deepest level ns ms) : Padded deepest level ns (n :: ms)

variable {deepest level : Nat}

/-! ### Idle nodes -/

/-- Nothing is kept of siblings each of which can be passed over. -/
theorem kept_of_passed {ns : List Node}
    (h : ∀ n ∈ ns, ∀ rest, kept deepest level (n :: rest) = kept deepest level rest) :
    kept deepest level ns = [] := by
  induction ns with
  | nil => rw [kept]
  | cons n ns ih =>
    rw [List.forall_mem_cons] at h
    rw [h.1, ih h.2]

theorem kept_cons_idle {n : Node} (h : Idle deepest level n) (rest : List Node) :
    kept deepest level (n :: rest) = kept deepest level rest := by
  induction h generalizing rest with
  | condition dropped => exact kept_condition_error dropped rest
  | tooDeep deep => exact kept_group_deep deep _ _ rest
  | empty _ ih => exact kept_group_empty (kept_of_passed ih) _ rest

/-- Siblings of which nothing is kept are idle. -/
theorem idle_of_kept {ns : List Node} (h : kept deepest level ns = []) :
    ∀ n ∈ ns, Idle deepest level n := by
  fun_induction kept deepest level ns with
  | case1 => exact fun n hn => absurd hn List.not_mem_nil
  | case2 => cases h
  | case3 level c rest later why herr ih => exact List.forall_mem_cons.mpr ⟨.condition herr, ih h⟩
  | case4 level joins children rest later hdeep ih =>
    exact List.forall_mem_cons.mpr ⟨.tooDeep hdeep, ih h⟩
  | case5 level joins children rest later hdeep hinner ih ihinner =>
    exact List.forall_mem_cons.mpr ⟨.empty (ihinner hinner), ih h⟩
  | case6 => cases h

/-- Nothing is kept of siblings exactly when all of them are idle. -/
theorem kept_eq_nil_iff_idle {ns : List Node} :
    kept deepest level ns = [] ↔ ∀ n ∈ ns, Idle deepest level n :=
  ⟨idle_of_kept, fun h => kept_of_passed fun n hn => kept_cons_idle (h n hn)⟩

/-! ### Idle nodes among others -/

theorem kept_group_congr {a b ns ms : List Node} (joins : Connective)
    (hinner : kept deepest (level + 1) a = kept deepest (level + 1) b)
    (hrest : kept deepest level ns = kept deepest level ms) :
    kept deepest level (.group joins a :: ns) = kept deepest level (.group joins b :: ms) := by
  rw [kept, kept, hinner, hrest]

/-- Idle nodes are not kept, wherever they are put in. -/
theorem kept_of_padded {ns ms : List Node} (h : Padded deepest level ns ms) :
    kept deepest level ms = kept deepest level ns := by
  induction h with
  | nil => rfl
  | condition c _ ih => rw [kept, kept, ih]
  | group joins _ _ ihinner ih => exact kept_group_congr joins ihinner ih
  | insert idle _ ih => rw [kept_cons_idle idle, ih]

/-- Siblings are what is kept of them with idle nodes put in. -/
theorem padded_kept (deepest level : Nat) (ns : List Node) :
    Padded deepest level (kept deepest level ns) ns := by
  fun_induction kept deepest level ns with
  | case1 => exact .nil
  | case2 level c rest later e hok ih => exact .condition c ih
  | case3 level c rest later why herr ih => exact .insert (.condition herr) ih
  | case4 level joins children rest later hdeep ih => exact .insert (.tooDeep hdeep) ih
  | case5 level joins children rest later hdeep hinner ih ihinner =>
    exact .insert (.empty (kept_eq_nil_iff_idle.mp hinner)) ih
  | case6 level joins children rest later hdeep n more hinner ih ihinner =>
    rw [hinner] at ihinner
    exact .group joins ihinner ih

/-! ### What is emitted -/

/-- What is kept of siblings emits what they emit and warns of nothing, at any place as deep. -/
theorem nodes_kept (deepest : Nat) (around : List Nat) (i j : Nat) (ns : List Node) :
    ∀ {around' : List Nat}, around'.length = around.length → ∀ i' j',
      nodes deepest around' i' j' (kept deepest around.length ns) =
        ⟨(nodes deepest around i j ns).items, []⟩ := by
  fun_induction nodes deepest around i j ns
  case case1 => exact fun _ _ _ => by rw [kept, nodes]
  case case2 around i j c rest later e hok ih =>
    intro around' hlevel i' j'
    rw [kept_condition_ok hok, nodes, hok]
    dsimp only
    rw [ih hlevel]
    rfl
  case case3 around i j c rest later why herr ih =>
    intro around' hlevel i' j'
    rw [kept_condition_error herr]
    exact ih hlevel i' j'
  case case4 around i j joins children rest later path hdeep ih =>
    intro around' hlevel i' j'
    rw [kept_group_deep hdeep]
    exact ih hlevel i' j'
  case case5 around i j joins children rest later hdeep inner e he ih ihinner =>
    intro around' hlevel i' j'
    have hlevel' : (around' ++ [j']).length = (around ++ [j]).length := by
      rw [length_inside, length_inside, hlevel]
    have hinner := ihinner hlevel' 0 0
    rw [length_inside] at hinner
    have hexpr : (⟨inner.items, []⟩ : Emitted).expr? = some e := he
    rw [kept_group hdeep (kept_inner_ne_nil he), nodes, hlevel, if_neg hdeep, hinner]
    dsimp only
    rw [hexpr, ih hlevel]
    rfl
  case case6 around i j joins children rest later path hdeep inner he ih ihinner =>
    intro around' hlevel i' j'
    rw [kept_group_empty ((kept_inner_eq_nil_iff ..).mpr he)]
    exact ih hlevel i' j'

theorem expr_congr {a b : Emitted} (h : a.items = b.items) : a.expr? = b.expr? := by
  rw [Emitted.expr?, Emitted.expr?, h]

/-- Trees of which the same is kept have the same expression. -/
theorem tree_congr {s t : Tree} (h : kept deepest 0 s.children = kept deepest 0 t.children) :
    (tree deepest s).1 = (tree deepest t).1 := by
  have hs := nodes_kept deepest [] 0 0 s.children rfl 0 0
  have ht := nodes_kept deepest [] 0 0 t.children rfl 0 0
  rw [List.length_nil, h] at hs
  exact expr_congr (Emitted.mk.inj (hs.symm.trans ht)).1

theorem eraseTree_children (deepest : Nat) (t : Tree) :
    (eraseTree (tree deepest t).2 t).children = kept deepest 0 t.children :=
  eraseAll_eq_kept deepest [] 0 0 t.children fun _ _ => Iff.rfl

/-- **What is dropped has no influence.** Without the nodes that its warnings name, a tree compiles to
the same expression, and to no warnings; what is missing then are idle nodes, and putting idle nodes
into any tree, at any places, leaves its expression as it is. -/
theorem dropped_without_influence (deepest : Nat) (t : Tree) :
    tree deepest (eraseTree (tree deepest t).2 t) = ((tree deepest t).1, []) ∧
    Padded deepest 0 (eraseTree (tree deepest t).2 t).children t.children ∧
    ∀ padded : Tree, Padded deepest 0 t.children padded.children →
      (tree deepest padded).1 = (tree deepest t).1 := by
  have herased := eraseTree_children deepest t
  refine ⟨?_, ?_, fun padded h => tree_congr (kept_of_padded h)⟩
  · have hkept := nodes_kept deepest [] 0 0 t.children rfl 0 0
    rw [List.length_nil] at hkept
    rw [tree, herased, hkept]
    rfl
  · rw [herased]
    exact padded_kept deepest 0 t.children

/-- Ann's calls that waited for longer than 30. -/
def sparseTree : Tree := ⟨[
  .condition (.new "agent" "=" (.string "ann")),
  .group .and [.condition (.new "wait" ">" (.number (.int 30)))]]⟩

/-- The same among rows that name no field, one of them in a group of its own, and a group that lies too
deep. -/
def litteredTree : Tree := ⟨[
  .condition (Condition.new "" "=" .null).or,
  .condition (.new "agent" "=" (.string "ann")),
  .group .or [.condition (.new "" "=" (.string "bob"))],
  .group .and [
    .condition (.new "wait" ">" (.number (.int 30))),
    .group .or [.condition (.new "answered" "=true" .null)]]]⟩

theorem littered_like_sparse :
    Padded 1 0 sparseTree.children litteredTree.children ∧
    (tree 1 litteredTree).1 = (tree 1 sparseTree).1 := by
  have hpadded : Padded 1 0 sparseTree.children litteredTree.children :=
    .insert (.condition rfl) <| .condition _ <|
    .insert (.empty (List.forall_mem_singleton.mpr (.condition rfl))) <|
    .group .and (.condition _ (.insert (.tooDeep Nat.le.refl) .nil)) .nil
  exact ⟨hpadded, (dropped_without_influence 1 sparseTree).2.2 litteredTree hpadded⟩

end BucketQuery.Compile
