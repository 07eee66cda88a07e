import BucketQuery.Proofs.Compile.Blank
import BucketQuery.Proofs.Compile.Columns
import BucketQuery.Proofs.Sql.Outline
import BucketQuery.Proofs.Sql.Scan

/-! Bound text and the values of a request.

From conditions up to plans, a request and its blank have equal outlines. Main statement,
`bound_sql_value_free`: requests that differ in values only compile to the same bound text, which
holds nothing but a few characters. -/
namespace BucketQuery.Compile

open BucketQuery.Filter (Condition Node Operator)
open Section (Query)
open Sql (Dialect Expr Piece itemOutline)

/-! ### Conditions -/

section Conditions
variable (c : Condition) (op : Operator)

theorem negate_outline (negated : Bool) {e f : Expr} (h : e.outline = f.outline) :
    (negate negated e).outline = (negate negated f).outline := by
  cases negated with
  | false => exact h
  | true => exact Sql.outline_not h

/-- Up to values, the test of a condition is known from its blank. -/
theorem test_blank (column : String) :
    (test c.blank column op).map Expr.outline = (test c column op).map Expr.outline := by
  have hshape := value_shape_blank c
  cases op with
  | compare cmp =>
    apply bind_of_outcome
    · rw [scalar_outcome, scalar_outcome, hshape]
      rfl
    · exact fun v w => congrArg Except.ok (negate_outline _ rfl)
  | like p =>
    apply bind_of_outcome
    · rw [likeText_outcome, likeText_outcome, hshape]
      rfl
    · exact fun s t => congrArg Except.ok (negate_outline _ rfl)
  | between negated =>
    apply bind_of_outcome
    · rw [range_outcome, range_outcome, hshape]
      rfl
    · exact fun a b => congrArg Except.ok (negate_outline _ rfl)
  | isNull negated => rfl
  | isTrue wanted => rfl
  | unrecognized text => rfl

theorem condition_blank :
    (condition c.blank).map Expr.outline = (condition c).map Expr.outline := by
  have hoperator : c.blank.operator = c.operator := rfl
  have hcomplete : c.blank.complete = c.complete := rfl
  have hfield : c.blank.field = c.field := rfl
  simp only [condition, hoperator, hcomplete, hfield]
  cases c.operator with
  | none => rfl
  | some op =>
    dsimp only
    split
    · rfl
    · split
      · exact test_blank c op _
      · rfl

end Conditions

/-! ### Trees -/

theorem expr_outline {a b : Emitted} (h : a.items.map itemOutline = b.items.map itemOutline) :
    a.expr?.map Expr.outline = b.expr?.map Expr.outline := by
  obtain ⟨as, _⟩ := a
  obtain ⟨bs, _⟩ := b
  dsimp only at h
  have hlength : as.length = bs.length := by simpa using congrArg List.length h
  cases as with
  | nil =>
    rw [List.length_eq_zero_iff.mp hlength.symm]
    rfl
  | cons a as =>
    obtain ⟨b, bs, rfl⟩ := List.exists_cons_of_length_eq_add_one hlength.symm
    cases as with
    | nil =>
      rw [List.length_eq_zero_iff.mp (Nat.succ.inj hlength.symm)] at h ⊢
      exact congrArg some (congrArg Prod.snd (List.cons.inj h).1)
    | cons a' as =>
      obtain ⟨b', bs, rfl⟩ := List.exists_cons_of_length_eq_add_one (Nat.succ.inj hlength.symm)
      exact congrArg some (Sql.outline_chain_congr h)

theorem nodes_blank (deepest : Nat) (around : List Nat) (i j : Nat) (ns : List Node) :
    (nodes deepest around i j (Node.blankAll ns)).items.map itemOutline =
      (nodes deepest around i j ns).items.map itemOutline := by
  fun_induction nodes deepest around i j ns with
  | case1 => rw [Node.blankAll, nodes]
  | case2 around i j c rest later e hok ih =>
    have hblank := condition_blank c
    rw [Node.blankAll, Node.blank, nodes]
    rw [hok] at hblank
    cases hc : condition c.blank with
    | error why =>
      rw [hc] at hblank
      cases hblank
    | ok e' =>
      rw [hc] at hblank
      have he : e'.outline = e.outline := Except.ok.inj hblank
      show itemOutline (c.joins, e') :: _ = itemOutline (c.joins, e) :: _
      rw [itemOutline, itemOutline, he, ih]
  | case3 around i j c rest later why herr ih =>
    have hblank := condition_blank c
    rw [Node.blankAll, Node.blank, nodes]
    rw [herr] at hblank
    cases hc : condition c.blank with
    | error why' => exact ih
    | ok e' =>
      rw [hc] at hblank
      cases hblank
  | case4 around i j joins children rest later path hdeep ih =>
    rw [Node.blankAll, Node.blank, nodes]
    dsimp only
    rw [if_pos hdeep]
    exact ih
  | case5 around i j joins children rest later hdeep inner e he ih ihinner =>
    have hblank := expr_outline ihinner
    rw [Node.blankAll, Node.blank, nodes]
    dsimp only
    rw [if_neg hdeep]
    rw [he] at hblank
    obtain ⟨e', he', houtline⟩ := Option.map_eq_some_iff.mp hblank
    rw [he']
    show itemOutline (joins, .nested e') :: _ = itemOutline (joins, .nested e) :: _
    rw [itemOutline, itemOutline, Sql.outline_nested houtline, ih]
  | case6 around i j joins children rest later path hdeep inner he ih ihinner =>
    have hblank := expr_outline ihinner
    rw [Node.blankAll, Node.blank, nodes]
    dsimp only
    rw [if_neg hdeep]
    rw [he] at hblank
    rw [Option.map_eq_none_iff.mp hblank]
    exact ih

/-- Up to values, the user's filter is known from the blank of the request. -/
theorem advanced_blank (s : CompilerSettings) (given : Option Section.Advanced) :
    (advanced s (given.map Section.Advanced.blank)).map (·.1.map Expr.outline) =
      (advanced s given).map (·.1.map Expr.outline) := by
  cases given with
  | none => rfl
  | some given =>
    cases given with
    | text condition => rfl
    | tree t => exact congrArg Except.ok (expr_outline (nodes_blank _ _ _ _ _))

/-! ### The base of a statement -/

theorem keyBound_outline (side : Side) {as bs : List (String × Int)}
    (h : as.map Prod.fst = bs.map Prod.fst) :
    (keyBound side as).outline = (keyBound side bs).outline := by
  induction as generalizing bs with
  | nil => rw [List.map_eq_nil_iff.mp h.symm]
  | cons a as ih =>
    obtain ⟨b, bs, rfl, hcolumn, hrest⟩ := List.map_eq_cons_iff.mp h.symm
    obtain ⟨column, v⟩ := a
    obtain ⟨_, w⟩ := b
    cases hcolumn
    have hkey := ih hrest.symm
    cases as with
    | nil =>
      rw [List.map_eq_nil_iff.mp hrest]
      rfl
    | cons a' as =>
      obtain ⟨b', bs, rfl, _, _⟩ := List.map_eq_cons_iff.mp hrest
      exact Sql.outline_nested (Sql.outline_chain_two .and .or rfl
        (Sql.outline_nested (Sql.outline_chain_two .and .and rfl hkey)))

theorem dateFilters_blank (r : Route) (start finish : Option Calendar.Instant)
    (f : Calendar.Instant → Calendar.Instant) :
    (dateFilters r (start.map f) (finish.map f)).map Expr.outline =
      (dateFilters r start finish).map Expr.outline := by
  have hcolumn : (columnFilter r (start.map f) (finish.map f)).map Expr.outline =
      (columnFilter r start finish).map Expr.outline := by
    cases start <;> cases finish <;> rfl
  have hkey (side : Side) (t : Option Calendar.Instant) :
      (keyFilter r side (t.map f)).map Expr.outline = (keyFilter r side t).map Expr.outline := by
    cases t with
    | none => rfl
    | some t =>
      simp only [keyFilter, Option.map_some]
      split
      · rfl
      · refine congrArg (fun o => [o]) (keyBound_outline side ?_)
        simp only [Route.keyValues, List.map_map, Function.comp_def]
  simp only [dateFilters, List.map_append, hcolumn, hkey]

theorem restrictions_blank (dims : Section.Dimensions) :
    (dims.blank.restrictions.map fun (column, values) =>
        Expr.inList column (values.map .text)).map Expr.outline =
      (dims.restrictions.map fun (column, values) =>
        Expr.inList column (values.map .text)).map Expr.outline := by
  have hlist (column : String) (names : List String) :
      (Expr.inList column ((names.map fun _ => "").map .text)).outline =
        (Expr.inList column (names.map .text)).outline :=
    Sql.outline_inList column (by simp)
  obtain ⟨queues, channels⟩ := dims
  simp only [Section.Dimensions.restrictions, Section.Dimensions.blank, List.filter_cons,
    List.isEmpty_map, List.filter_nil]
  split <;> split <;> simp only [List.map_cons, List.map_nil, hlist]

theorem select_blank (r : Route) (q : Query) {f f' : Option Expr}
    (h : f'.map Expr.outline = f.map Expr.outline) :
    Piece.outline (select r q.blank f').pieces = Piece.outline (select r q f).pieces := by
  have hbase : (baseFilters r q.blank).map Expr.outline = (baseFilters r q).map Expr.outline := by
    simp only [baseFilters, List.map_append]
    congr 1
    · exact dateFilters_blank r q.startDate q.endDate _
    · exact restrictions_blank q.dimensions
  have hfilter : (f'.map Expr.nested).toList.map Expr.outline =
      (f.map Expr.nested).toList.map Expr.outline := by
    cases f with
    | none =>
      rw [Option.map_eq_none_iff.mp h]
    | some e =>
      obtain ⟨e', rfl, he⟩ := Option.map_eq_some_iff.mp h
      exact congrArg (fun o => [o]) (Sql.outline_nested he)
  apply Sql.outline_select
  case hhead => exact Sql.Select.head_congr rfl rfl
  case htail => exact Sql.Select.tail_congr rfl rfl
  case hfilters => simp only [select, List.map_append, hbase, hfilter]

/-! ### Plans -/

/-- Up to values, the statement of a plan is known from the blank of the request. -/
theorem plan_blank (c : Compiler) (q : Query) :
    (c.plan q.blank).map (fun p => Piece.outline p.statement.pieces) =
      (c.plan q).map fun p => Piece.outline p.statement.pieces := by
  have hadvanced := advanced_blank c.settings q.advanced
  have hblank : q.blank.advanced = q.advanced.map Section.Advanced.blank := rfl
  have htime : q.blank.timeInterval = q.timeInterval := rfl
  rw [← hblank] at hadvanced
  simp only [Compiler.plan, htime]
  have hresolved : (resolveGranularity c.settings.strictGranularity q.timeInterval).map id =
      (resolveGranularity c.settings.strictGranularity q.timeInterval).map id := rfl
  refine bind_of_map hresolved fun resolved resolved' hsame => ?_
  obtain rfl : resolved = resolved' := hsame
  exact bind_of_map hadvanced fun found found' hview => congrArg Except.ok (select_blank _ q hview)

theorem sql_blank (c : Compiler) (d : Dialect) (q : Query) :
    (c.compileWith .bound d q.blank).map (·.sql) = (c.compileWith .bound d q).map (·.sql) := by
  have hsql (q : Query) : (c.compileWith .bound d q).map (·.sql) =
      ((c.plan q).map fun p => Piece.outline p.statement.pieces).map (Piece.outlineText d 0) := by
    rw [compileWith_eq]
    cases c.plan q with
    | error e => rfl
    | ok p =>
      show Except.ok (p.statement.render d .bound).sql = _
      rw [p.statement.render_eq]
      exact congrArg Except.ok (Piece.boundText_outline d 0 _)
  rw [hsql, hsql, plan_blank]

/-- **Bound text is free of values.** Requests that differ in values of equal shape only compile to
one bound text or fail alike, and bound text is made of letters, digits and the punctuation of
statements, whatever strings the request holds. -/
theorem bound_sql_value_free (c : Compiler) {d : Dialect} (hd : d ∈ Dialect.all) {q₁ q₂ : Query}
    (hq : q₁.NoText) (h : q₁.blank = q₂.blank) :
    (c.compileWith .bound d q₁).map (·.sql) = (c.compileWith .bound d q₂).map (·.sql) ∧
      ∀ out, c.compileWith .bound d q₁ = .ok out → out.sql.toList.all Sql.isBoundChar = true := by
  refine ⟨?_, fun out hout => ?_⟩
  · rw [← sql_blank c d q₁, ← sql_blank c d q₂, h]
  · obtain ⟨p, hp, rfl⟩ := compiled_of_ok c q₁ hout
    show (p.statement.render d .bound).sql.toList.all Sql.isBoundChar = true
    rw [p.statement.render_eq]
    exact Piece.boundText_chars hd 0 (Sql.Select.pieces_within (plan_named hq hp))

/-- A request with a start, a queue and a text to look for. -/
def searchQuery (start : Calendar.Instant) (queue agent : String) : Query :=
  (({startDate := some start} : Query).withQueues [queue]).withTree
    ⟨[.condition (.new "agent" "LIKE" (.string agent))]⟩

theorem other_search_same_text :
    (Compiler.default.compileWith .bound .postgres
        (searchQuery (.midnight .epoch) "sales" "ann")).map (·.sql) =
      (Compiler.default.compileWith .bound .postgres
        (searchQuery (.midnight ⟨2024, 2, 29, by decide⟩) "'; --" "\\'")).map (·.sql) := by
  have hd : Dialect.postgres ∈ Dialect.all := by simp [Dialect.all]
  have hq : (searchQuery (.midnight .epoch) "sales" "ann").NoText := Query.noText_of_tree rfl
  have hblank : (searchQuery (.midnight .epoch) "sales" "ann").blank =
      (searchQuery (.midnight ⟨2024, 2, 29, by decide⟩) "'; --" "\\'").blank := rfl
  exact (bound_sql_value_free .default hd hq hblank).1

end BucketQuery.Compile
