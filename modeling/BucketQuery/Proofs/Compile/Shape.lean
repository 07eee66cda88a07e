import BucketQuery.Proofs.Compile.Account
import BucketQuery.Proofs.Compile.Columns
import BucketQuery.Proofs.Sql.Outside

/-! The shape of what a compile generates.

Filter trees and ranges of dates are turned into expressions by two recursions, and neither parenthesizes
more than it has to: a group of one condition is that condition, and a chain gets its parentheses from
whoever puts it beside something else. Main statement, `generated_shapes`: what comes out is shaped, trees
are as deep as allowed at most, and so a text has no empty parentheses and no OR outside of parentheses
but in names. -/
namespace BucketQuery.Compile

open BucketQuery.Filter (Condition Node Operator Tree)
open Section (Query)
open Sql (Dialect Expr Lexeme LiteralMode isIdentifier lex orNames)

/-! ### Filter trees -/

/-- An item of a chain. -/
def IsItem (e : Expr) : Prop := e.isRaw = false ∧ e.Shaped false

theorem item_of_isTest {e : Expr} (h : e.isTest = true) : IsItem e ∧ e.nesting = 0 := by
  cases e with
  | compare | like | between => exact ⟨⟨rfl, trivial⟩, rfl⟩
  | _ => cases h

theorem negate_item {e : Expr} (h : e.isTest = true) (negated : Bool) :
    IsItem (negate negated e) ∧ (negate negated e).nesting = 0 := by
  cases negated with
  | false => exact item_of_isTest h
  | true => exact ⟨⟨rfl, h⟩, (item_of_isTest h).2⟩

/-- Only what compares, matches or bounds is ever negated. -/
theorem test_item {c : Condition} {column : String} {op : Operator} {e : Expr}
    (h : test c column op = .ok e) : IsItem e ∧ e.nesting = 0 := by
  cases op with
  | compare cmp =>
    obtain ⟨v, _, h⟩ := ok_of_bind h
    cases h
    exact negate_item rfl _
  | like p =>
    obtain ⟨s, _, h⟩ := ok_of_bind h
    cases h
    exact negate_item rfl _
  | between negated =>
    obtain ⟨bounds, _, h⟩ := ok_of_bind h
    cases h
    exact negate_item rfl _
  | isNull negated =>
    cases h
    exact ⟨⟨rfl, trivial⟩, rfl⟩
  | isTrue wanted =>
    cases h
    exact item_of_isTest rfl
  | unrecognized token => cases h

theorem condition_item {c : Condition} {e : Expr} (h : condition c = .ok e) :
    IsItem e ∧ e.nesting = 0 := by
  obtain ⟨op, _, _, ht⟩ := test_of_condition h
  exact test_item ht

theorem expr_shaped {em : Emitted} {e : Expr} (h : em.expr? = some e)
    (hi : ∀ item ∈ em.items, IsItem item.2) : e.Shaped true := by
  rcases expr_cases h with ⟨joins, hitems⟩ | ⟨hlength, rfl⟩
  · rw [hitems] at hi
    exact (hi _ List.mem_cons_self).2.root
  · exact ⟨rfl, hlength, Expr.shapedItems_iff.mpr hi⟩

theorem nodes_shaped (deepest : Nat) (around : List Nat) (i j : Nat) (ns : List Node) :
    ∀ item ∈ (nodes deepest around i j ns).items, IsItem item.2 := by
  apply nodes_items
  case hgroup => exact fun em e he hi => ⟨rfl, expr_shaped he hi⟩
  case h => exact fun _ _ c e _ hok => (condition_item hok).1

theorem expr_nesting {em : Emitted} {e : Expr} {n : Nat} (h : em.expr? = some e)
    (hi : ∀ item ∈ em.items, item.2.nesting ≤ n) : e.nesting ≤ n := by
  rcases expr_cases h with ⟨joins, hitems⟩ | ⟨_, rfl⟩
  · rw [hitems] at hi
    exact hi _ List.mem_cons_self
  · exact Expr.nesting_chain_le_iff.mpr hi

/-- The groups around siblings and the parentheses in what they emit are `deepest` together at most. -/
theorem nodes_nesting (deepest : Nat) (around : List Nat) (i j : Nat) (ns : List Node)
    (h : around.length ≤ deepest) :
    ∀ item ∈ (nodes deepest around i j ns).items, item.2.nesting ≤ deepest - around.length := by
  fun_induction nodes deepest around i j ns with
  | case1 => exact fun item hm => absurd hm List.not_mem_nil
  | case2 around i j c rest later e hok ih =>
    have hzero : e.nesting = 0 := (condition_item hok).2
    exact List.forall_mem_cons.mpr ⟨hzero ▸ Nat.zero_le _, ih h⟩
  | case3 around i j c rest later why herr ih => exact ih h
  | case4 around i j joins children rest later path hdeep ih => exact ih h
  | case5 around i j joins children rest later hdeep inner e he ih ihinner =>
    have hinner : e.nesting ≤ deepest - (around ++ [j]).length :=
      expr_nesting he (ihinner (by simp; omega))
    refine List.forall_mem_cons.mpr ⟨?_, ih h⟩
    show e.nesting + 1 ≤ deepest - around.length
    rw [List.length_append, List.length_singleton] at hinner
    omega
  | case6 around i j joins children rest later path hdeep inner he ih ihinner => exact ih h

/-- What a tree comes out as: nothing of it is trusted text, and no path down it passes through more
parentheses than there may be groups around each other. -/
theorem tree_shaped {deepest : Nat} {t : Tree} {e : Expr} (h : (tree deepest t).1 = some e) :
    e.Shaped true ∧ e.Over (fun _ => True) ∧ e.nesting ≤ deepest :=
  ⟨expr_shaped h (nodes_shaped _ _ _ _ _),
    expr_over h (nodes_over _ _ _ _ _ fun _ _ _ => trivial),
    expr_nesting h (nodes_nesting deepest [] 0 0 t.children (Nat.zero_le _))⟩

/-! ### Ranges of dates -/

theorem keyBound_item (side : Side) {keys : List (String × Int)} (hne : keys ≠ []) :
    IsItem (keyBound side keys) := by
  induction keys with
  | nil => exact absurd rfl hne
  | cons key rest ih =>
    cases rest with
    | nil => exact ⟨rfl, trivial⟩
    | cons next rest =>
      have hpair {a b : Expr} (ha : IsItem a) (hb : IsItem b) (joins) :
          IsItem (.nested (.chain [(.and, a), (joins, b)])) :=
        ⟨rfl, rfl, Nat.le_refl _, ha, hb, trivial⟩
      have hcompare {column : String} {op} {v : Sql.Value} : IsItem (.compare column op v) :=
        ⟨rfl, trivial⟩
      exact hpair hcompare (hpair hcompare (ih (List.cons_ne_nil _ _)) .and) .or

theorem dateFilters_shaped {r : Route} {start finish : Option Calendar.Instant} :
    ∀ e ∈ dateFilters r start finish, e.Shaped false ∧ e.Over fun _ => True := by
  intro e he
  refine ⟨?_, dateFilters_over r start finish trivial (fun _ _ => trivial) e he⟩
  rcases of_mem_dateFilters he with ⟨low, high, rfl⟩ | ⟨op, v, rfl⟩ | ⟨side, t, hne, rfl⟩
  · trivial
  · trivial
  · refine (keyBound_item side fun hnil => ?_).2
    rw [Route.keyValues, List.map_eq_nil_iff] at hnil
    rw [hnil] at hne
    cases hne

/-! ### Statements -/

theorem baseFilters_shaped (r : Route) (q : Query) : ∀ e ∈ baseFilters r q, e.Shaped false := by
  intro e he
  rcases List.mem_append.mp he with he | he
  · exact (dateFilters_shaped e he).1
  · obtain ⟨⟨column, names⟩, hm, rfl⟩ := List.mem_map.mp he
    have hnames : names ≠ [] := by simpa using (List.mem_filter.mp hm).2
    show names.map Sql.Value.text ≠ []
    simpa using hnames

/-- The filter of a request may be trusted text, which is not empty then. -/
theorem advanced_shaped {s : CompilerSettings} {q : Query} {filter : Option Expr} {dropped : List Warning}
    (h : advanced s q.advanced = .ok (filter, dropped)) : ∀ e ∈ filter, e.Shaped true := by
  intro e he
  cases ha : q.advanced with
  | none =>
    rw [ha] at h
    cases h
    cases he
  | some given =>
    rw [ha] at h
    cases given with
    | tree t =>
      cases h
      exact (tree_shaped he).1
    | text text =>
      rw [(advanced_text_of_ok h).1] at he
      split at he
      · cases he
      · rename_i hne
        cases he
        show Text.trim text ≠ ""
        simpa using hne

theorem select_shaped {s : CompilerSettings} {q : Query} {filter : Option Expr} {dropped : List Warning}
    (h : advanced s q.advanced = .ok (filter, dropped)) (r : Route) :
    ∀ e ∈ (select r q filter).filters, e.Shaped false := by
  intro e he
  rcases List.mem_append.mp he with he | he
  · exact baseFilters_shaped r q e he
  · obtain ⟨f, hf, rfl⟩ := Option.map_eq_some_iff.mp (Option.mem_toList.mp he)
    exact advanced_shaped h f hf

section Plan
variable {c : Compiler} {q : Query} {p : Plan}

/-- All conditions of a statement stand apart; the user's are in parentheses, whatever they name. -/
theorem plan_apart (hp : c.plan q = .ok p) : ∀ e ∈ p.statement.filters, e.Apart := by
  obtain ⟨g, fallback, filter, dropped, _, ha, rfl⟩ := plan_of_ok c q hp
  intro e he
  refine ⟨select_shaped ha _ e he, ?_⟩
  rcases List.mem_append.mp he with he | he
  · exact .inl (baseFilters_over g c.tables q (by decide) e he)
  · obtain ⟨f, hf, rfl⟩ := Option.map_eq_some_iff.mp (Option.mem_toList.mp he)
    exact .inr ⟨f, rfl⟩

theorem plan_solid {d : Dialect} (hd : d ∈ Dialect.all) (mode : LiteralMode) (hq : q.NoText)
    (hp : c.plan q = .ok p) : ∃ ms, d.scan (p.statement.render d mode).sql = some ms ∧
      Lexeme.Solid (lex ms) ∧ Lexeme.bareOrs (lex ms) =
        orNames (p.statement.columns ++
          p.statement.table :: (p.statement.groupBy.toList ++ p.statement.orderBy)) := by
  have hnamed := plan_named hq hp
  obtain ⟨ms, fill, hfill, hscan, hlex⟩ :=
    Sql.scan_lexemes hd mode p.statement.pieces_jointed (Sql.Select.pieces_within hnamed)
  rw [p.statement.render_eq]
  refine ⟨ms, hscan, ?_⟩
  rw [hlex]
  exact Sql.Select.lexemes_solid hfill hnamed (plan_apart hp)

theorem filter_solid {d : Dialect} (hd : d ∈ Dialect.all) (hq : q.NoText) (hp : c.plan q = .ok p)
    {text : String} (h : p.filterSql d = some text) :
    ∃ ms, d.scan text = some ms ∧ Lexeme.Solid (lex ms) := by
  obtain ⟨e, he, rfl⟩ := Option.map_eq_some_iff.mp h
  have hover : e.Over (isIdentifier · = true) :=
    (plan_over hq hp (by decide) fun _ _ h => h).2 e he
  have hshaped : e.Shaped true := by
    obtain ⟨_, ha, _⟩ := plan_parts c q hp
    exact advanced_shaped ha e he
  obtain ⟨ms, fill, hfill, hscan, hlex⟩ :=
    Sql.scan_lexemes hd .inline e.pieces_jointed (Sql.Expr.pieces_within hover)
  rw [e.render_eq]
  refine ⟨ms, hscan, ?_⟩
  rw [hlex]
  exact Sql.Expr.lexemes_solid hfill hover hshaped 0

/-- No statement is ordered by a column that is written like an OR. -/
theorem orderBy_ors (g : Granularity) (ts : Tables) : orNames (route g ts).orderBy = [] := by
  cases g <;> rfl

end Plan

/-- **Generated conditions are shaped.** A tree comes out as an expression whose chains stand at its root or
right inside parentheses and have two items or more, none of them a chain, whose negations are of single
tests, and whose parentheses are as deep as allowed at most; ranges of dates and the conditions of a
statement are no chains themselves. So no text of a compile without trusted text has empty parentheses,
and each OR in a statement that is not a name is in parentheses. -/
theorem generated_shapes :
    (∀ (deepest : Nat) (t : Tree) (e : Expr), (tree deepest t).1 = some e →
      e.Shaped true ∧ e.Over (fun _ => True) ∧ e.nesting ≤ deepest) ∧
    (∀ (r : Route) (start finish : Option Calendar.Instant), ∀ e ∈ dateFilters r start finish,
      e.Shaped false ∧ e.Over fun _ => True) ∧
    (∀ (s : CompilerSettings) (q : Query) (filter : Option Expr) (dropped : List Warning),
      advanced s q.advanced = .ok (filter, dropped) →
        ∀ r, ∀ e ∈ (select r q filter).filters, e.Shaped false) ∧
    ∀ (c : Compiler), ∀ d ∈ Dialect.all, ∀ (mode : LiteralMode) (q : Query), q.NoText →
      ∀ out, c.compileWith mode d q = .ok out →
        (∃ ms, d.scan out.sql = some ms ∧ Lexeme.Filled (lex ms) ∧
          Lexeme.bareOrs (lex ms) =
            orNames ((projection q.columns).1 ++ out.table :: (groupKey q.groupBy).1.toList)) ∧
        ∀ text, out.filterSql = some text → ∃ ms, d.scan text = some ms ∧ Lexeme.Filled (lex ms) := by
  refine ⟨fun _ _ _ h => tree_shaped h, fun _ _ _ => dateFilters_shaped,
    fun _ _ _ _ h r => select_shaped h r, fun c d hd mode q hq out h => ?_⟩
  obtain ⟨p, hp, rfl⟩ := compiled_of_ok c q h
  constructor
  · obtain ⟨ms, hscan, hsolid, hors⟩ := plan_solid hd mode hq hp
    refine ⟨ms, hscan, hsolid.filled, hors.trans ?_⟩
    obtain ⟨_, _, hstatement, _⟩ := plan_parts c q hp
    show orNames (p.statement.columns ++ p.statement.table :: (p.statement.groupBy.toList ++ _)) =
      orNames ((projection q.columns).1 ++ p.statement.table :: (groupKey q.groupBy).1.toList)
    rw [← List.cons_append, ← List.append_assoc, Sql.orNames_append, hstatement]
    show _ ++ orNames (route _ _).orderBy = _
    rw [orderBy_ors, List.append_nil]
    rfl
  · intro text htext
    obtain ⟨ms, hscan, hsolid⟩ := filter_solid hd hq hp htext
    exact ⟨ms, hscan, hsolid.filled⟩

def waitCondition : Condition := ⟨"wait", some (.compare .gt), .number (.int 30), .and, false⟩

def noteCondition : Condition := ⟨"note", some (.like .within), .string "or (", .and, true⟩

/-- A test of a column that is written like an OR. -/
def orCondition : Condition := ⟨"or", some (.compare .eq), .number (.int 1), .or, false⟩

def orTree : Tree :=
  ⟨[.condition waitCondition, .group .or [.condition noteCondition, .condition orCondition]]⟩

def orFilter : Expr :=
  .chain [(.and, .compare "wait" .gt (.int 30)),
    (.or, .nested (.chain [(.and, .not (.like "note" (.text "%or (%") false)),
      (.or, .compare "or" .eq (.int 1))]))]

theorem tree_orTree (deepest : Nat) : (tree (deepest + 1) orTree).1 = some orFilter := by
  have hwait : condition waitCondition = .ok (.compare "wait" .gt (.int 30)) := rfl
  have hnote : condition noteCondition = .ok (.not (.like "note" (.text "%or (%") false)) := rfl
  have hor : condition orCondition = .ok (.compare "or" .eq (.int 1)) := rfl
  have hdeep : ¬ deepest + 1 ≤ 0 := by omega
  simp only [tree, orTree, nodes, hwait, hnote, hor, List.length_nil, if_neg hdeep]
  rfl

def orQuery : Query := {
  columns := ["or", "wait"]
  startDate := some (.midnight .epoch)
  groupBy := some "or"
  advanced := some (.tree orTree)}

theorem orQuery_shapes :
    ((tree 1 orTree).1 = some orFilter ∧ orFilter.Shaped true ∧ orFilter.nesting ≤ 1) ∧
    (∃ key ∈ dateFilters (route .hourly {}) (some (.midnight .epoch)) none,
      key = keyBound .lower ((route .hourly {}).keyValues (.midnight .epoch)) ∧ key.Shaped false) ∧
    (∃ dropped, advanced {} orQuery.advanced = .ok (some orFilter, dropped) ∧
      ∀ e ∈ (select (route .daily {}) orQuery (some orFilter)).filters, e.Shaped false) ∧
    ∃ out text, Compiler.default.compileWith .bound .postgres orQuery = .ok out ∧
      out.filterSql = some text ∧
      (∃ ms, Dialect.postgres.scan out.sql = some ms ∧ Lexeme.Filled (lex ms) ∧
        Lexeme.bareOrs (lex ms) = [.word "or".toList, .word "or".toList]) ∧
      ∃ ms, Dialect.postgres.scan text = some ms ∧ Lexeme.Filled (lex ms) := by
  obtain ⟨htree, hdates, hselect, hcompile⟩ := generated_shapes
  have hdialect : Dialect.postgres ∈ Dialect.all := by simp [Dialect.all]
  have htext : orQuery.NoText := Query.noText_of_tree rfl
  have hfilter := htree 1 orTree orFilter (tree_orTree 0)
  have hadvanced : advanced {} orQuery.advanced = .ok (some orFilter, (tree 4 orTree).2) :=
    congrArg (fun filter => Except.ok (filter, (tree 4 orTree).2)) (tree_orTree 3)
  have hok : ∃ out, Compiler.default.compileWith .bound .postgres orQuery = .ok out ∧
      out.table = "stats_daily" := ⟨_, rfl, rfl⟩
  obtain ⟨out, h, htable⟩ := hok
  obtain ⟨⟨ms, hscan, hfilled, hors⟩, hfilters⟩ :=
    hcompile .default .postgres hdialect .bound orQuery htext out h
  rw [htable] at hors
  have hfilterSql : out.filterSql = some (orFilter.render .postgres .inline).sql := by
    rw [filterSql_of_tree rfl h]
    exact congrArg (Option.map fun e => (e.render .postgres .inline).sql) (tree_orTree 3)
  have hkey : keyBound .lower ((route .hourly {}).keyValues (.midnight .epoch)) ∈
      dateFilters (route .hourly {}) (some (.midnight .epoch)) none :=
    List.mem_cons_of_mem _ List.mem_cons_self
  exact ⟨⟨tree_orTree 0, hfilter.1, hfilter.2.2⟩, ⟨_, hkey, rfl, (hdates _ _ _ _ hkey).1⟩,
    ⟨_, hadvanced, hselect {} orQuery _ _ hadvanced _⟩, out, _, h, hfilterSql,
    ⟨ms, hscan, hfilled, hors⟩, hfilters _ hfilterSql⟩

end BucketQuery.Compile
