import BucketQuery.Proofs.Compile.Plan
import BucketQuery.Proofs.Sql.Pieces

/-! The columns that a compile names.

A name reaches a statement from the settings, from the routes, as a restricted dimension, or from
the request, where it is checked first. `plan_named` says that all of them are identifiers.
`plan_over` is the finer fact about conditions: what holds of the fixed columns, and of those
identifiers that are fields of the filter tree, holds of every column that is tested. -/
namespace BucketQuery

/-- The filter is not given as text. -/
def Section.Query.NoText (q : Section.Query) : Prop := ∀ s, q.advanced ≠ some (.text s)

namespace Filter

mutual

/-- The fields of the conditions in a node, without the blank space around them. -/
def Node.fields : Node → List String
  | .condition c => [Text.trim c.field]
  | .group _ children => Node.fieldsOf children

def Node.fieldsOf : List Node → List String
  | [] => []
  | n :: rest => n.fields ++ Node.fieldsOf rest

end

end Filter

theorem Section.Query.noText_of_tree {q : Section.Query} {t : Filter.Tree}
    (h : q.advanced = some (.tree t)) : q.NoText := by
  intro s hs
  rw [h] at hs
  cases hs

/-- The fields of the filter tree. -/
def Section.Query.fields (q : Section.Query) : List String :=
  match q.advanced with
  | some (.tree t) => Filter.Node.fieldsOf t.children
  | _ => []

namespace Compile

open BucketQuery.Filter (Condition Node Operator)
open Section (Query)
open Sql (Expr isIdentifier)

variable {P : String → Prop}

/-! ### Conditions and trees -/

/-- A test of a column, without a negation around it. -/
def Tests (column : String) : Expr → Prop
  | .compare name _ _ | .like name _ _ | .between name _ _ _ | .isNull name _ => name = column
  | .raw _ | .inList .. | .not _ | .nested _ | .chain _ => False

/-- A condition that compiles is a test of the column or the negation of one. -/
theorem test_of_ok {c : Condition} {column : String} {op : Operator} {e : Expr}
    (h : test c column op = .ok e) : ∃ a, Tests column a ∧ (e = a ∨ e = .not a) := by
  have hnegate {a : Expr} (ha : Tests column a) :
      ∃ b, Tests column b ∧ (negate c.negated a = b ∨ negate c.negated a = .not b) := by
    refine ⟨a, ha, ?_⟩
    cases c.negated
    · exact .inl rfl
    · exact .inr rfl
  cases op with
  | compare cmp =>
    obtain ⟨v, _, h⟩ := ok_of_bind h
    cases h
    exact hnegate rfl
  | like p =>
    obtain ⟨s, _, h⟩ := ok_of_bind h
    cases h
    exact hnegate rfl
  | between negated =>
    obtain ⟨bounds, _, h⟩ := ok_of_bind h
    cases h
    exact hnegate rfl
  | isNull negated =>
    cases h
    refine ⟨_, ?_, .inl rfl⟩
    rfl
  | isTrue wanted =>
    cases h
    refine ⟨_, ?_, .inl rfl⟩
    rfl
  | unrecognized text => cases h

theorem over_of_tests {column : String} {a : Expr} (h : Tests column a) (hc : P column) :
    a.Over P := by
  cases a with
  | compare name op v => exact h ▸ hc
  | like name v negated => exact h ▸ hc
  | between name low high negated => exact h ▸ hc
  | isNull name negated => exact h ▸ hc
  | _ => cases h

theorem test_over {c : Condition} {column : String} {op : Operator} {e : Expr}
    (h : test c column op = .ok e) (hc : P column) : e.Over P := by
  obtain ⟨a, ha, he⟩ := test_of_ok h
  have hover : a.Over P := over_of_tests ha hc
  rcases he with rfl | rfl
  · exact hover
  · exact hover

/-- What compiles has a field that is an identifier, and is a test of it. -/
theorem test_of_condition {c : Condition} {e : Expr} (h : condition c = .ok e) :
    ∃ op, c.operator = some op ∧ isIdentifier (Text.trim c.field) = true ∧
      test c (Text.trim c.field) op = .ok e := by
  unfold condition at h
  cases ho : c.operator with
  | none =>
    rw [ho] at h
    cases h
  | some op =>
    rw [ho] at h
    dsimp only at h
    split at h
    · cases h
    · by_cases hi : isIdentifier (Text.trim c.field) = true
      · rw [if_pos hi] at h
        exact ⟨op, rfl, hi, h⟩
      · rw [if_neg hi] at h
        cases h

theorem condition_over {c : Condition} {e : Expr} (h : condition c = .ok e)
    (hc : isIdentifier (Text.trim c.field) = true → P (Text.trim c.field)) : e.Over P := by
  obtain ⟨op, _, hi, ht⟩ := test_of_condition h
  exact test_over ht (hc hi)

/-- Items are one expression as a chain, or because there is just one of them. -/
theorem expr_cases {em : Emitted} {e : Expr} (h : em.expr? = some e) :
    (∃ joins, em.items = [(joins, e)]) ∨ 2 ≤ em.items.length ∧ e = .chain em.items := by
  unfold Emitted.expr? at h
  split at h
  · cases h
  · rename_i joins item hitems
    cases h
    exact .inl ⟨joins, hitems⟩
  · rename_i hnil hone
    cases h
    refine .inr ⟨?_, rfl⟩
    cases hitems : em.items with
    | nil => exact absurd hitems hnil
    | cons item rest =>
      cases rest with
      | nil => exact absurd hitems (hone item.1 item.2)
      | cons next rest => simp

/-- The one expression of some items is over what its items are over. -/
theorem expr_over {em : Emitted} {e : Expr} (h : em.expr? = some e)
    (hi : ∀ item ∈ em.items, item.2.Over P) : e.Over P := by
  rcases expr_cases h with ⟨joins, hitems⟩ | ⟨_, rfl⟩
  · rw [hitems] at hi
    exact hi _ List.mem_cons_self
  · exact Expr.over_chain.mpr hi

/-- What holds of every test of a field of the tree, and of a group if it holds of all that is in it,
holds of all items. -/
theorem nodes_items {Q : Expr → Prop}
    (hgroup : ∀ (em : Emitted) (e : Expr), em.expr? = some e → (∀ item ∈ em.items, Q item.2) →
      Q (.nested e))
    (deepest : Nat) (around : List Nat) (i j : Nat) (ns : List Node)
    (h : ∀ f ∈ Node.fieldsOf ns, ∀ c e, Text.trim c.field = f → condition c = .ok e → Q e) :
    ∀ item ∈ (nodes deepest around i j ns).items, Q item.2 := by
  fun_induction nodes deepest around i j ns with
  | case1 => exact fun item hm => absurd hm List.not_mem_nil
  | case2 around i j c rest later e hok ih =>
    rw [Node.fieldsOf, Node.fields, List.singleton_append, List.forall_mem_cons] at h
    exact List.forall_mem_cons.mpr ⟨h.1 c e rfl hok, ih h.2⟩
  | case3 around i j c rest later why herr ih =>
    rw [Node.fieldsOf, Node.fields, List.singleton_append, List.forall_mem_cons] at h
    exact ih h.2
  | case4 around i j joins children rest later path hdeep ih =>
    rw [Node.fieldsOf, List.forall_mem_append] at h
    exact ih h.2
  | case5 around i j joins children rest later hdeep inner e he ih ihinner =>
    rw [Node.fieldsOf, Node.fields, List.forall_mem_append] at h
    exact List.forall_mem_cons.mpr ⟨hgroup inner e he (ihinner h.1), ih h.2⟩
  | case6 around i j joins children rest later path hdeep inner he ih ihinner =>
    rw [Node.fieldsOf, List.forall_mem_append] at h
    exact ih h.2

theorem nodes_over (deepest : Nat) (around : List Nat) (i j : Nat) (ns : List Node)
    (h : ∀ f ∈ Node.fieldsOf ns, isIdentifier f = true → P f) :
    ∀ item ∈ (nodes deepest around i j ns).items, item.2.Over P := by
  apply nodes_items
  case hgroup =>
    intro em e he hi
    have hinner : e.Over P := expr_over he hi
    exact hinner
  case h =>
    rintro f hf c e rfl hok
    exact condition_over hok (h _ hf)

/-- The user's filter, if it is not text, is made from the tree. -/
theorem advanced_of_ok {s : CompilerSettings} {q : Query} {filter : Option Expr}
    {dropped : List Warning} (hq : q.NoText) (h : advanced s q.advanced = .ok (filter, dropped)) :
    (q.advanced = none ∧ filter = none) ∨
      ∃ t, q.advanced = some (.tree t) ∧ filter = (tree s.maxGroupDepth t).1 ∧
        dropped = (tree s.maxGroupDepth t).2 := by
  cases ha : q.advanced with
  | none =>
    rw [ha] at h
    cases h
    exact .inl ⟨rfl, rfl⟩
  | some given =>
    cases given with
    | text condition => exact absurd ha (hq condition)
    | tree t =>
      rw [ha] at h
      cases h
      exact .inr ⟨t, rfl, rfl, rfl⟩

theorem advanced_over {s : CompilerSettings} {q : Query} {filter : Option Expr}
    {dropped : List Warning} (hq : q.NoText) (h : advanced s q.advanced = .ok (filter, dropped))
    (hp : ∀ f ∈ q.fields, isIdentifier f = true → P f) : ∀ e ∈ filter, e.Over P := by
  rcases advanced_of_ok hq h with ⟨_, rfl⟩ | ⟨t, ha, rfl, _⟩
  · exact fun e he => by cases he
  · unfold Section.Query.fields at hp
    rw [ha] at hp
    exact fun e he => expr_over he (nodes_over _ _ _ _ _ hp)

/-! ### The base of a statement -/

/-- The columns that statements test or sort by of themselves. -/
def fixedColumns : List String :=
  ["timeInterval", "yearMonth", "year", "month", "day", "hour", "queue", "channel"]

theorem route_columns (g : Granularity) (ts : Tables) :
    (route g ts).dateColumn ∈ fixedColumns ∧ (∀ name ∈ (route g ts).orderBy, name ∈ fixedColumns) ∧
      ∀ part ∈ (route g ts).key, part.column ∈ fixedColumns := by
  cases g <;> simp [route, hourKey, KeyPart.column, fixedColumns]

theorem keyBound_over (side : Side) {keys : List (String × Int)} (hne : keys ≠ [])
    (h : ∀ key ∈ keys, P key.1) : (keyBound side keys).Over P := by
  induction keys with
  | nil => exact absurd rfl hne
  | cons key rest ih =>
    obtain ⟨column, v⟩ := key
    rw [List.forall_mem_cons] at h
    cases rest with
    | nil => exact h.1
    | cons next rest =>
      have hrest := ih (List.cons_ne_nil _ _) h.2
      exact ⟨h.1, ⟨h.1, hrest, trivial⟩, trivial⟩

/-- The range of dates is tested by the column of dates and by the key. -/
theorem of_mem_dateFilters {r : Route} {start finish : Option Calendar.Instant} {e : Expr}
    (h : e ∈ dateFilters r start finish) :
    (∃ low high, e = .between r.dateColumn low high false) ∨
      (∃ op v, e = .compare r.dateColumn op v) ∨
      ∃ side t, r.key.isEmpty = false ∧ e = keyBound side (r.keyValues t) := by
  have hkey {side : Side} {t : Option Calendar.Instant} (h : e ∈ keyFilter r side t) :
      ∃ side t, r.key.isEmpty = false ∧ e = keyBound side (r.keyValues t) := by
    cases t with
    | none => cases h
    | some t =>
      rw [keyFilter] at h
      split at h
      · cases h
      · rename_i hne
        exact ⟨side, t, Bool.eq_false_iff.mpr hne, List.mem_singleton.mp h⟩
  rcases List.mem_append.mp h with h | h
  · rcases List.mem_append.mp h with h | h
    · unfold columnFilter at h
      split at h
      · exact .inl ⟨_, _, List.mem_singleton.mp h⟩
      · exact .inr (.inl ⟨_, _, List.mem_singleton.mp h⟩)
      · exact .inr (.inl ⟨_, _, List.mem_singleton.mp h⟩)
      · cases h
    · exact .inr (.inr (hkey h))
  · exact .inr (.inr (hkey h))

/-- Behind the range of dates only queues and channels are restricted. -/
theorem of_mem_baseFilters {r : Route} {q : Query} {e : Expr} (h : e ∈ baseFilters r q) :
    e ∈ dateFilters r q.startDate q.endDate ∨
      ∃ column values, (column = "queue" ∨ column = "channel") ∧ e = .inList column values := by
  rcases List.mem_append.mp h with h | h
  · exact .inl h
  · obtain ⟨⟨column, names⟩, hm, rfl⟩ := List.mem_map.mp h
    have hm := (List.mem_filter.mp hm).1
    simp only [List.mem_cons, Prod.mk.injEq, List.not_mem_nil, or_false] at hm
    exact .inr ⟨column, _, hm.imp And.left And.left, rfl⟩

theorem dateFilters_over (r : Route) (start finish : Option Calendar.Instant)
    (hd : P r.dateColumn) (hk : ∀ part ∈ r.key, P part.column) :
    ∀ e ∈ dateFilters r start finish, e.Over P := by
  intro e he
  rcases of_mem_dateFilters he with ⟨low, high, rfl⟩ | ⟨op, v, rfl⟩ | ⟨side, t, hne, rfl⟩
  · exact hd
  · exact hd
  · apply keyBound_over
    · simpa [Route.keyValues] using hne
    · intro key hmem
      obtain ⟨part, hpart, rfl⟩ := List.mem_map.mp hmem
      exact hk part hpart

theorem baseFilters_over (g : Granularity) (ts : Tables) (q : Query)
    (h : ∀ name ∈ fixedColumns, P name) : ∀ e ∈ baseFilters (route g ts) q, e.Over P := by
  obtain ⟨hd, _, hk⟩ := route_columns g ts
  intro e he
  rcases of_mem_baseFilters he with he | ⟨column, values, rfl | rfl, rfl⟩
  · exact dateFilters_over _ _ _ (h _ hd) (fun part hp => h _ (hk part hp)) e he
  · exact h _ (by decide)
  · exact h _ (by decide)

/-! ### Plans -/

variable {c : Compiler} {q : Query} {p : Plan}

/-- Whatever holds of the fixed columns and of the fields of the tree holds of every column that a
plan tests. -/
theorem plan_over (hq : q.NoText) (hp : c.plan q = .ok p) (hfixed : ∀ name ∈ fixedColumns, P name)
    (hfields : ∀ f ∈ q.fields, isIdentifier f = true → P f) :
    (∀ e ∈ p.statement.filters, e.Over P) ∧ ∀ e ∈ p.filter, e.Over P := by
  obtain ⟨g, fallback, filter, dropped, _, ha, rfl⟩ := plan_of_ok c q hp
  have hfilter := advanced_over hq ha hfields
  refine ⟨fun e he => ?_, hfilter⟩
  rcases List.mem_append.mp he with he | he
  · exact baseFilters_over g c.tables q hfixed e he
  · obtain ⟨f, hf, rfl⟩ := Option.map_eq_some_iff.mp (Option.mem_toList.mp he)
    exact hfilter f hf

theorem projection_named (columns : List String) :
    ∀ name ∈ (projection columns).1, name = "*" ∨ isIdentifier name = true := by
  intro name hm
  unfold projection at hm
  rw [List.partition_eq_filter_filter] at hm
  dsimp only at hm
  split at hm
  · exact .inl (List.mem_singleton.mp hm)
  · have := (List.mem_filter.mp hm).2
    rwa [Bool.or_eq_true, beq_iff_eq] at this

theorem groupKey_named (key : Option String) :
    ∀ name ∈ (groupKey key).1, isIdentifier name = true := by
  intro name hm
  unfold groupKey at hm
  dsimp only at hm
  generalize Text.trim (key.getD "") = name' at hm
  split at hm
  · cases hm
  · by_cases hi : isIdentifier name' = true
    · rw [if_pos hi] at hm
      cases hm
      exact hi
    · rw [if_neg hi] at hm
      cases hm

theorem route_table (g : Granularity) (ts : Tables) : (route g ts).table = ts.tableFor g := by
  cases g <;> rfl

theorem select_named (c : Compiler) (g : Granularity) (q : Query) {filter : Option Expr}
    (h : ∀ e ∈ filter, e.Over (isIdentifier · = true)) :
    (select (route g c.tables) q filter).Named := by
  have hfixed : ∀ name ∈ fixedColumns, isIdentifier name = true := by decide
  constructor
  case columns =>
    simp only [select]
    exact projection_named q.columns
  case table =>
    show isIdentifier (route g c.tables).table = true
    rw [route_table]
    exact c.tables_valid g
  case filters =>
    intro e he
    rcases List.mem_append.mp he with he | he
    · exact baseFilters_over g c.tables q hfixed e he
    · obtain ⟨f, hf, rfl⟩ := Option.map_eq_some_iff.mp (Option.mem_toList.mp he)
      exact h f hf
  case groupBy =>
    simp only [select]
    exact groupKey_named q.groupBy
  case orderBy => exact fun name hm => hfixed name ((route_columns g c.tables).2.1 name hm)

/-- All names of a statement have been checked. -/
theorem plan_named (hq : q.NoText) (hp : c.plan q = .ok p) : p.statement.Named := by
  have hfilter := (plan_over hq hp (by decide) fun _ _ h => h).2
  obtain ⟨g, fallback, filter, dropped, _, _, rfl⟩ := plan_of_ok c q hp
  exact select_named c g q hfilter

end Compile

end BucketQuery
