import BucketQuery.Proofs.Compile.Account

/-! What the user's filter adds to a statement.

The statement of a request is made without regard to the user's filter, and the filter is put behind it as
one condition in parentheses. Main statement, `advanced_adds_conjunct`: where a request compiles, so does
the request without its filter, and the text of the one is that of the other, opened once in front of the
grouping and the order. Nothing else of the text changes, the parameters of the filter come last, and its
placeholders count on from those in front of them. -/
namespace BucketQuery.Compile

open Section (Query)
open Sql (Dialect Expr LiteralMode Piece SameStatement Select Value fragmentParams fragmentText interleave)

/-- What stands behind the filters of a request: the grouping, if there is one, and the order. -/
def clauseText (r : Route) (q : Query) : String :=
  ((groupKey q.groupBy).1.elim "" fun key => " GROUP BY " ++ key) ++
    (" ORDER BY " ++ ", ".intercalate r.orderBy)

/-- One compile is another with a condition more. The condition, texts with values between them, stands in
parentheses in front of the clauses; its placeholders count on, its parameters come last, and its text
with the values inline is shown for itself. -/
structure AddsConjunct (d : Dialect) (mode : LiteralMode) (texts : List String) (values : List Value)
    (clauses : String) (base out : Compiled) : Prop where
  filterSql : out.filterSql = some (interleave texts (values.map d.literal))
  sql : ∃ before, base.sql = before ++ clauses ∧ out.sql =
    before ++ " AND (" ++ fragmentText d mode base.params.length texts values ++ ")" ++ clauses
  params : out.params = base.params ++ fragmentParams mode values

/-! ### Statements -/

theorem select_clauses (g : Granularity) (tables : Tables) (q : Query) (filter : Option Expr) :
    (select (route g tables) q filter).clauses = clauseText (route g tables) q := by
  have horder : (select (route g tables) q filter).orderBy.isEmpty = false := by cases g <;> rfl
  rw [Select.clauses, horder, clauseText, select]
  rfl

/-- The plan without the filter. -/
def Plan.base (p : Plan) (c : Compiler) (q : Query) : Plan where
  granularity := p.granularity
  statement := select (route p.granularity c.tables) q none
  filter := none
  warnings := intervalWarnings q ++ requestWarnings q

theorem plan_without_advanced (c : Compiler) {q : Query} {p : Plan} (h : c.plan q = .ok p) :
    c.plan {q with advanced := none} = .ok (p.base c q) := by
  obtain ⟨g, fallback, filter, dropped, hr, -, rfl⟩ := plan_of_ok c q h
  obtain ⟨-, rfl⟩ := resolved_of_ok hr
  unfold Compiler.plan
  rw [hr]
  simp only [bind, Except.bind, pure, Except.pure, advanced, Plan.base, intervalWarnings, requestWarnings,
    List.append_nil, List.append_assoc]
  rfl

/-- A plan with a filter renders to the plan without it, and the filter in parentheses. -/
theorem base_addsConjunct {c : Compiler} {q : Query} {p : Plan} {e : Expr}
    (hstatement : p.statement = select (route p.granularity c.tables) q (some e))
    (hfilter : p.filter = some e) (mode : LiteralMode) (d : Dialect) :
    AddsConjunct d mode (Piece.texts e.pieces) (Piece.values e.pieces)
      (clauseText (route p.granularity c.tables) q) ((p.base c q).compiled mode d)
      (p.compiled mode d) := by
  have hsame := e.render_sameStatement
  have hbase : (p.base c q).statement = select (route p.granularity c.tables) q none := rfl
  rw [select_some, ← hbase] at hstatement
  refine ⟨?_, ⟨Piece.textFrom d mode 0 (p.base c q).statement.front, ?_, ?_⟩, ?_⟩
  · show (p.filter.map fun e => (e.render d .inline).sql) = _
    rw [hfilter]
    exact congrArg (fun r => some r.sql) (hsame.inline d)
  · show ((p.base c q).statement.render d mode).sql = _
    rw [Select.render_sql, hbase, select_clauses]
  · show (p.statement.render d mode).sql = _ ++ " AND (" ++
      fragmentText d mode ((p.base c q).statement.render d mode).params.length _ _ ++ ")" ++ _
    rw [hstatement, Select.withFilter_sql, Piece.textFrom_eq d mode _ e.pieces, hbase, select_clauses]
  · show (p.statement.render d mode).params = ((p.base c q).statement.render d mode).params ++ _
    rw [hstatement, Select.withFilter_params, e.render_eq, Piece.render_eq, Piece.params]

/-- **A filter adds one condition in parentheses.** Where a request compiles, it compiles without its
filter too, on the same table. With nothing left of the filter the statement is the same; else it is
opened once, in front of its grouping and its order, for the filter that is also shown for itself. What
is said of the filter is said behind what is said of the interval. -/
theorem advanced_adds_conjunct (c : Compiler) {q : Query} {mode : LiteralMode} {d : Dialect}
    {out : Compiled} (h : c.compileWith mode d q = .ok out) :
    ∃ base, c.compileWith mode d {q with advanced := none} = .ok base ∧
      base.table = out.table ∧ base.granularity = out.granularity ∧
      base.warnings = intervalWarnings q ++ requestWarnings q ∧
      out.warnings =
        intervalWarnings q ++ filterWarnings c.settings.maxGroupDepth q.advanced ++ requestWarnings q ∧
      ((out.filterSql = none ∧ out.sql = base.sql ∧ out.params = base.params) ∨
        ∃ e dropped texts values, advanced c.settings q.advanced = .ok (some e, dropped) ∧
          SameStatement e.render texts values ∧
          AddsConjunct d mode texts values (clauseText (route out.granularity c.tables) q) base out) := by
  obtain ⟨p, hp, rfl⟩ := compiled_of_ok c q h
  obtain ⟨-, ha, hstatement, hwarnings⟩ := plan_parts c q hp
  have hbase : c.compileWith mode d {q with advanced := none} = .ok ((p.base c q).compiled mode d) := by
    rw [compileWith_eq, plan_without_advanced c hp]
    rfl
  refine ⟨_, hbase, ?_, rfl, rfl, hwarnings, ?_⟩
  · show (p.base c q).statement.table = p.statement.table
    rw [hstatement]
    rfl
  · cases hfilter : p.filter with
    | none =>
      rw [hfilter] at hstatement
      have hcompiled : p.compiled mode d = {(p.base c q).compiled mode d with warnings := p.warnings} := by
        unfold Plan.compiled Plan.filterSql Plan.base
        rw [hfilter, hstatement]
      rw [hcompiled]
      exact .inl ⟨rfl, rfl, rfl⟩
    | some e =>
      rw [hfilter] at hstatement ha
      exact .inr ⟨e, _, _, _, ha, e.render_sameStatement,
        base_addsConjunct hstatement hfilter mode d⟩

/-- An agent with a quote in the name. -/
def agentCondition : Filter.Condition :=
  ⟨"agent", some (.compare .eq), .string "o'hara", .and, false⟩

def fieldlessCondition : Filter.Condition := ⟨" ", none, .null, .or, true⟩

def agentsTree : Filter.Tree := ⟨[.condition agentCondition, .condition fieldlessCondition]⟩

/-- Rows of two queues by agent, with a filter. -/
def agentsQuery : Query := {
  dimensions := {queues := ["support", "sales"]}
  groupBy := some "agent"
  advanced := some (.tree agentsTree)}

/-- The condition that compiles stands in front of the grouping; its placeholder comes third. -/
theorem agents_conjunct : ∃ base out texts values,
    Compiler.default.compileWith .bound .postgres {agentsQuery with advanced := none} = .ok base ∧
    Compiler.default.compileWith .bound .postgres agentsQuery = .ok out ∧
    base.params = [.text "support", .text "sales"] ∧
    SameStatement (Expr.compare "agent" .eq (.text "o'hara")).render texts values ∧
    AddsConjunct .postgres .bound texts values " GROUP BY agent ORDER BY timeInterval" base out := by
  obtain ⟨out, hout, hg⟩ : ∃ out,
      Compiler.default.compileWith .bound .postgres agentsQuery = .ok out ∧ out.granularity = .daily :=
    ⟨_, rfl, rfl⟩
  have htree : (tree Compiler.default.settings.maxGroupDepth agentsTree).1 =
      some (.compare "agent" .eq (.text "o'hara")) := by
    have hcompiled : condition agentCondition = .ok (.compare "agent" .eq (.text "o'hara")) := rfl
    have hdropped : condition fieldlessCondition = .error .incomplete := rfl
    simp only [tree, agentsTree, nodes, hcompiled, hdropped]
    rfl
  obtain ⟨base, hbase, -, -, -, -, hnone | ⟨e, dropped, texts, values, he, hsame, hadds⟩⟩ :=
    advanced_adds_conjunct .default hout
  · rw [filterSql_of_tree rfl hout, htree] at hnone
    cases hnone.1
  · obtain rfl := Option.some.inj ((congrArg Prod.fst (Except.ok.inj he)).symm.trans htree)
    rw [hg] at hadds
    refine ⟨base, out, texts, values, hbase, hout, ?_, hsame, hadds⟩
    cases hbase
    rfl

end BucketQuery.Compile
