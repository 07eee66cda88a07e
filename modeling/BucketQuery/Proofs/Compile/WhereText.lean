import BucketQuery.Proofs.Compile.Meaning
import BucketQuery.Proofs.Sql.Clause

/-! The rows that a compiled text lets through.

A plan has no chain beside other conditions (`plan_layered`), so its text reads back
(`Select.reads`). What the filters of the statement mean is put together here from the range of
dates, the restrictions and the filter tree, the last by `truths_kept`. Main statement,
`where_text_rounded`: on every row, the WHERE clause of a compiled text is the AND of them, the filter tree read
from its JSON and, where its numbers are not kept, with them rounded (`beyond_column_missed`). -/
namespace BucketQuery.Compile

open BucketQuery.Filter (Condition Connective Node Operator Tree)
open Section (Query)
open Sql (Cells Dialect Expr IsColumn LiteralMode Predicate Row Truth joined)

/-! ### Layers -/

theorem layered_of_tests {column : String} {a : Expr} (h : Tests column a) (chained : Bool) :
    a.Layered chained := by
  cases a with
  | not e => cases h
  | nested e => cases h
  | chain items => cases h
  | _ => trivial

theorem test_layered {c : Condition} {column : String} {op : Operator} {e : Expr}
    (h : test c column op = .ok e) : e.Layered false := by
  obtain ⟨a, ha, he⟩ := test_of_ok h
  have hlayered (chained : Bool) : a.Layered chained := layered_of_tests ha chained
  rcases he with rfl | rfl
  · exact hlayered false
  · exact hlayered true

theorem layered_of_not_chained {e : Expr} (h : e.Layered false) : e.Layered true := by
  cases e with
  | chain items => exact absurd h.1 Bool.false_ne_true
  | _ => exact h

theorem expr_layered {em : Emitted} {e : Expr} (h : em.expr? = some e)
    (hi : ∀ item ∈ em.items, item.2.Layered false) : e.Layered true := by
  rcases expr_cases h with ⟨joins, hitems⟩ | ⟨_, rfl⟩
  · rw [hitems] at hi
    exact layered_of_not_chained (hi _ List.mem_cons_self)
  · exact ⟨rfl, items_of_expr_some h, Expr.layeredItems_iff.mpr hi⟩

theorem nodes_layered (deepest : Nat) (around : List Nat) (i j : Nat) (ns : List Node) :
    ∀ item ∈ (nodes deepest around i j ns).items, item.2.Layered false := by
  apply nodes_items
  case hgroup => exact fun em e he hi => expr_layered he hi
  case h =>
    intro _ _ c e _ hok
    obtain ⟨op, _, _, ht⟩ := test_of_condition hok
    exact test_layered ht

theorem keyBound_layered (side : Side) (keys : List (String × Int)) (chained : Bool) :
    (keyBound side keys).Layered chained := by
  induction keys generalizing chained with
  | nil => trivial
  | cons key rest ih =>
    cases rest with
    | nil => trivial
    | cons next rest =>
      have htie : (Expr.nested (.chain [(.and, .compare key.1 .eq (.int key.2)),
          (.and, keyBound side (next :: rest))])).Layered false :=
        ⟨rfl, List.cons_ne_nil _ _, trivial, ih false, trivial⟩
      exact ⟨rfl, List.cons_ne_nil _ _, trivial, htie, trivial⟩

theorem baseFilters_layered (r : Route) (q : Query) :
    ∀ e ∈ baseFilters r q, e.Layered false := by
  intro e he
  rcases of_mem_baseFilters he with he | ⟨column, values, _, rfl⟩
  · rcases of_mem_dateFilters he with ⟨low, high, rfl⟩ | ⟨op, v, rfl⟩ | ⟨side, t, _, rfl⟩
    · trivial
    · trivial
    · exact keyBound_layered side _ false
  · trivial

variable {c : Compiler} {q : Query} {p : Plan}

theorem advanced_layered {s : CompilerSettings} {filter : Option Expr} {dropped : List Warning}
    (hq : q.NoText) (h : advanced s q.advanced = .ok (filter, dropped)) :
    ∀ e ∈ filter, e.Layered true := by
  rcases advanced_of_ok hq h with ⟨_, rfl⟩ | ⟨t, _, rfl, _⟩
  · exact fun e he => by cases he
  · exact fun e he => expr_layered he (nodes_layered _ _ _ _ _)

/-- No filter of a statement is a chain, nor is there one beside others further down. -/
theorem plan_layered (hq : q.NoText) (hp : c.plan q = .ok p) :
    ∀ e ∈ p.statement.filters, e.Layered false := by
  obtain ⟨g, fallback, filter, dropped, _, ha, rfl⟩ := plan_of_ok c q hp
  intro e he
  rcases List.mem_append.mp he with he | he
  · exact baseFilters_layered _ q e he
  · obtain ⟨f, hf, rfl⟩ := Option.map_eq_some_iff.mp (Option.mem_toList.mp he)
    exact advanced_layered hq ha f hf

/-! ### Warnings -/

@[simp] theorem namedPaths_append (as bs : List Warning) :
    namedPaths (as ++ bs) = namedPaths as ++ namedPaths bs :=
  List.filterMap_append

theorem resolveGranularity_namedPaths {strict : Bool} {token : Option String} {g : Granularity}
    {fallback : List Warning} (h : resolveGranularity strict token = .ok (g, fallback)) :
    namedPaths fallback = [] := by
  unfold resolveGranularity at h
  split at h
  · cases h
    rfl
  · split at h
    · cases h
    · cases h
      rfl

@[simp] theorem datesWarning_namedPaths (q : Query) : namedPaths (datesWarning q) = [] := by
  unfold datesWarning
  split
  · split
    · rfl
    · rfl
  · rfl

@[simp] theorem projection_namedPaths (columns : List String) : namedPaths (projection columns).2 = [] := by
  simp [namedPaths, projection, List.filterMap_map, Function.comp_def, Warning.path?]

@[simp] theorem groupKey_namedPaths (key : Option String) : namedPaths (groupKey key).2 = [] := by
  unfold groupKey
  dsimp only
  split
  · rfl
  · split
    · rfl
    · rfl

/-- Of the parts of a request only the filter tree is named by paths. -/
theorem plan_namedPaths (hp : c.plan q = .ok p) {filter : Option Expr} {dropped : List Warning}
    (ha : advanced c.settings q.advanced = .ok (filter, dropped)) :
    namedPaths p.warnings = namedPaths dropped := by
  obtain ⟨g, fallback, filter', dropped', hr, ha', rfl⟩ := plan_of_ok c q hp
  rw [ha] at ha'
  cases ha'
  simp only [namedPaths_append, resolveGranularity_namedPaths hr, datesWarning_namedPaths,
    projection_namedPaths, groupKey_namedPaths, List.append_nil, List.nil_append]

/-! ### The user's filter -/

section Filter
variable (read : Condition → Option Truth)

/-- What the user's filter says once the nodes that warnings name are erased, by a reading of conditions.
Text has no reading here. -/
def filterTruth? (ws : List Warning) : Option Section.Advanced → Option Truth
  | none => some .true
  | some (.text _) => none
  | some (.tree t) => (eraseTree ws t).truth? read

/-- All conditions of the user's filter that are left once the nodes are erased that warnings name. -/
def FilterEvery (P : Condition → Prop) (ws : List Warning) (given : Option Section.Advanced) : Prop :=
  ∀ t, given = some (.tree t) → (eraseTree ws t).Every P

variable {read} {read' : Condition → Option Truth}

theorem filterTruth?_congr {ws : List Warning} {given : Option Section.Advanced}
    (h : FilterEvery (fun c => read c = read' c) ws given) :
    filterTruth? read ws given = filterTruth? read' ws given := by
  cases given with
  | none => rfl
  | some given =>
    cases given with
    | text s => rfl
    | tree t => exact Tree.truth?_congr (h t rfl)

end Filter

/-! ### The rows let through -/

section Meaning
variable {Cell : Type} (w : Cells Cell) (row : Row Cell)

/-- What a column that may only have some names says, if there are any. -/
def restrictionTruths (column : String) (names : List String) : List Truth :=
  if names.isEmpty then [] else [w.among (row column) (names.map fun name => some (w.text name))]

theorem restrictions_truth (dims : Section.Dimensions) :
    (dims.restrictions.map fun (column, values) =>
        Expr.inList column (values.map .text)).map (Expr.truth w row) =
      restrictionTruths w row "queue" dims.queues ++
        restrictionTruths w row "channel" dims.channels := by
  have hlist (column : String) (names : List String) :
      (Expr.inList column (names.map .text)).truth w row =
        w.among (row column) (names.map fun name => some (w.text name)) := by
    rw [Expr.truth, List.map_map]
    rfl
  obtain ⟨queues, channels⟩ := dims
  simp only [restrictionTruths, Section.Dimensions.restrictions, List.filter_cons, List.filter_nil]
  cases queues.isEmpty <;> cases channels.isEmpty <;>
    simp only [Bool.not_true, Bool.not_false, Bool.false_eq_true, if_true, if_false, List.map_cons,
      List.map_nil, List.nil_append, List.singleton_append, hlist]

theorem isEmpty_of_truths {read : Condition → Option Truth} {ns : List Node} {ts : List (Connective × Truth)}
    (h : Node.truths? read ns = some ts) : ns.isEmpty = ts.isEmpty := by
  cases ns with
  | nil =>
    cases h
    rfl
  | cons n rest =>
    obtain ⟨t, _, h⟩ := Option.bind_eq_some_iff.mp h
    obtain ⟨ts', _, h⟩ := Option.bind_eq_some_iff.mp h
    cases h
    rfl

theorem tree_truth (deepest : Nat) (t : Tree) {ws : List Warning}
    (h : namedPaths ws = namedPaths (tree deepest t).2) :
    (eraseTree ws t).truth? (fun cond => cond.rounded.truth? w row) =
      some (Truth.all (((tree deepest t).1.map .nested).toList.map (Expr.truth w row))) := by
  have hread : Node.truths? (fun cond => cond.rounded.truth? w row) (kept deepest 0 t.children) = _ :=
    truths_kept deepest [] 0 0 t.children
  have hempty := isEmpty_of_truths hread
  rw [List.isEmpty_map] at hempty
  rw [eraseTree_eq_kept h]
  unfold Tree.truth?
  show (if (kept deepest 0 t.children).isEmpty then _ else
    (Node.truths? (fun cond => cond.rounded.truth? w row) (kept deepest 0 t.children)).map joined) = _
  rw [hread, hempty]
  cases he : (nodes deepest [] 0 0 t.children).expr? with
  | none =>
    have hfilter : (tree deepest t).1 = none := he
    rw [items_of_expr_none he, hfilter]
    rfl
  | some e =>
    have hfilter : (tree deepest t).1 = some e := he
    have hitems : (nodes deepest [] 0 0 t.children).items.isEmpty = false :=
      List.isEmpty_eq_false_iff.mpr (items_of_expr_some he)
    rw [hitems, if_neg Bool.false_ne_true, hfilter, Option.map_some, ← truth_expr he]
    exact congrArg some (Truth.and_true _).symm

/-- What the user's filter says is what is added for it to the statement. -/
theorem filter_truth {s : CompilerSettings} (hq : q.NoText) {filter : Option Expr}
    {dropped ws : List Warning} (ha : advanced s q.advanced = .ok (filter, dropped))
    (h : namedPaths ws = namedPaths dropped) :
    filterTruth? (fun cond => cond.rounded.truth? w row) ws q.advanced =
      some (Truth.all ((filter.map .nested).toList.map (Expr.truth w row))) := by
  rcases advanced_of_ok hq ha with ⟨hgiven, rfl⟩ | ⟨t, hgiven, rfl, rfl⟩
  · rw [hgiven]
    rfl
  · rw [hgiven]
    exact tree_truth w row s.maxGroupDepth t h

theorem fixedColumns_columns : ∀ name ∈ fixedColumns, IsColumn name := by decide

/-- What the base of a statement says: the range of dates, and the restrictions to queues and channels. -/
def baseTruths (r : Route) (q : Query) : List Truth :=
  (dateFilters r q.startDate q.endDate).map (Expr.truth w row) ++
    restrictionTruths w row "queue" q.dimensions.queues ++
    restrictionTruths w row "channel" q.dimensions.channels

theorem baseFilters_truth (r : Route) (q : Query) :
    (baseFilters r q).map (Expr.truth w row) = baseTruths w row r q := by
  rw [baseFilters, List.map_append, restrictions_truth, baseTruths, List.append_assoc]

theorem text_truth (c : Compiler) {d : Dialect} (hd : d ∈ Dialect.all) (mode : LiteralMode) {q : Query}
    (hq : q.NoText) (hfields : ∀ f ∈ q.fields, Sql.isIdentifier f = true → IsColumn f) {out : Compiled}
    (h : c.compileWith mode d q = .ok out) :
    ∃ said, filterTruth? (fun cond => cond.rounded.truth? w row) out.warnings q.advanced = some said ∧
      (d.predicate? out.params out.sql).map (Predicate.truth w row) =
        some (Truth.all (baseTruths w row (route out.granularity c.tables) q ++ [said])) := by
  obtain ⟨p, hp, rfl⟩ := compiled_of_ok c q h
  have hover := (plan_over hq hp fixedColumns_columns hfields).1
  have hlayered := plan_layered hq hp
  have hread : (d.predicate? (p.statement.render d mode).params (p.statement.render d mode).sql).map
      (Predicate.truth w row) = _ :=
    Sql.Select.reads hd mode (plan_named hq hp) fun e he => ⟨hover e he, hlayered e he⟩
  obtain ⟨g, fallback, filter, dropped, hr, ha, rfl⟩ := plan_of_ok c q hp
  refine ⟨_, filter_truth w row hq ha (plan_namedPaths hp ha), ?_⟩
  refine hread.trans (congrArg some ?_)
  show Truth.all ((baseFilters (route g c.tables) q ++ (filter.map Expr.nested).toList).map
    (Expr.truth w row)) = _
  rw [List.map_append, baseFilters_truth, Truth.all_append, Truth.all_append _ [_], Truth.all, Truth.all,
    Truth.and_true]
  rfl

end Meaning

/-- What is left of the user's filter is what compiles to something. -/
theorem eraseTree_of_compiled (c : Compiler) {mode : LiteralMode} {d : Dialect} {q : Query} (hq : q.NoText)
    {out : Compiled} (h : c.compileWith mode d q = .ok out) {t : Tree} (ht : q.advanced = some (.tree t)) :
    eraseTree out.warnings t = ⟨kept c.settings.maxGroupDepth 0 t.children⟩ := by
  obtain ⟨p, hp, rfl⟩ := compiled_of_ok c q h
  have ha := (plan_parts c q hp).2.1
  have hnamed : namedPaths p.warnings = _ := plan_namedPaths hp ha
  rcases advanced_of_ok hq ha with ⟨hnone, -⟩ | ⟨t', ht', -, hdropped⟩
  · rw [ht] at hnone
    cases hnone
  · rw [ht] at ht'
    cases ht'
    exact eraseTree_eq_kept (hnamed.trans (congrArg namedPaths hdropped))

theorem filter_compiles (c : Compiler) {mode : LiteralMode} {d : Dialect} {q : Query} (hq : q.NoText)
    {out : Compiled} (h : c.compileWith mode d q = .ok out) :
    FilterEvery (fun cond => ∃ e, condition cond = .ok e) out.warnings q.advanced := by
  intro t ht
  rw [eraseTree_of_compiled c hq h ht]
  exact kept_compiles _ _ _

theorem filterTruth?_of_compiles {Cell : Type} (w : Cells Cell) (row : Row Cell) {ws : List Warning} {q : Query}
    (hq : q.NoText) (h : FilterEvery (fun cond => ∃ e, condition cond = .ok e) ws q.advanced) :
    ∃ t, filterTruth? (Condition.truth? w row) ws q.advanced = some t := by
  cases hgiven : q.advanced with
  | none => exact ⟨_, rfl⟩
  | some given =>
    cases given with
    | text s => exact absurd hgiven (hq s)
    | tree t =>
      exact Option.isSome_iff_exists.mp (Tree.truth?_isSome
        (Node.everyIn_mono (fun _ ⟨_, hok⟩ => truth_isSome hok) _ (h t hgiven)))

/-- **The WHERE text says what the request says with its numbers rounded.** Whatever compiles, in every dialect
and either mode: on every row, the conditions that the text is read as come out as the AND of the range of
dates, the restrictions to queues and channels, and the filter tree without the nodes that warnings name. The
tree is the one given as long as the whole numbers in it are kept; else it is that with its numbers rounded, and
no condition that compares with a number that is not kept says the same on all rows. -/
theorem where_text_rounded (c : Compiler) {d : Dialect} (hd : d ∈ Dialect.all) (mode : LiteralMode)
    (q : Query) (hq : q.NoText)
    (hfields : ∀ f ∈ q.fields, Sql.isIdentifier f = true → IsColumn f) {out : Compiled}
    (h : c.compileWith mode d q = .ok out) :
    (∀ {Cell : Type} (w : Cells Cell) (row : Row Cell), ∃ meant said,
      filterTruth? (Condition.truth? w row) out.warnings q.advanced = some meant ∧
      filterTruth? (fun cond => cond.rounded.truth? w row) out.warnings q.advanced = some said ∧
      (d.predicate? out.params out.sql).map (Predicate.truth w row) =
        some (Truth.all (baseTruths w row (route out.granularity c.tables) q ++ [said])) ∧
      (FilterEvery (fun cond => ∀ n ∈ cond.wholes, Kept n) out.warnings q.advanced → said = meant)) ∧
    FilterEvery (fun cond => (∀ n ∈ cond.wholes, IsWhole n) →
      ((∀ {Cell : Type} (w : Cells Cell) (row : Row Cell), cond.rounded.truth? w row = cond.truth? w row) ↔
        ∀ n ∈ cond.wholes, Kept n)) out.warnings q.advanced := by
  have hcompiles := filter_compiles c hq h
  refine ⟨fun w row => ?_, fun t ht => ?_⟩
  · obtain ⟨said, hsaid, hread⟩ := text_truth w row c hd mode hq hfields h
    obtain ⟨meant, hmeant⟩ := filterTruth?_of_compiles w row hq hcompiles
    refine ⟨meant, said, hmeant, hsaid, hread, fun hkept => ?_⟩
    have halike := filterTruth?_congr fun t ht =>
      Node.everyIn_mono (fun cond hcond => rounded_alike hcond w row) _ (hkept t ht)
    exact Option.some.inj (hsaid.symm.trans (halike.trans hmeant))
  · exact Node.everyIn_mono (fun cond ⟨_, hok⟩ hwhole => rounded_alike_iff hok hwhole) _ (hcompiles t ht)

/-- An OR between a condition and a run with a group in it, behind a condition that is dropped. -/
def mixedTree : Tree := ⟨[
  .condition ⟨"wait", some (.between false), .null, .and, false⟩,
  .condition ⟨"agent", some (.compare .eq), .string "ann", .and, false⟩,
  .condition ⟨"wait", some (.compare .gt), .int 30, .or, false⟩,
  .group .and [.condition ⟨"answered", some (.isTrue true), .null, .and, false⟩,
    .condition ⟨"note", some (.isNull false), .null, .or, true⟩]]⟩

def mixedQuery : Query :=
  (({startDate := some (.midnight .epoch)} : Query).withQueues ["sales"]).withTree mixedTree

/-- Bob has answered after a wait of 42, and has made no note. -/
def bobRow : Row (Rat ⊕ String) := fun column =>
  if column = "timeInterval" then some (.inr "2024-02-29")
  else if column = "queue" then some (.inr "sales")
  else if column = "agent" then some (.inr "bob")
  else if column = "wait" then some (.inl 42)
  else if column = "answered" then some (.inl 1)
  else none

/-- It is the run behind the OR that lets the row through. -/
theorem mixed_text_true :
    ∃ out, Compiler.default.compileWith .bound .postgres mixedQuery = .ok out ∧
      filterTruth? (Condition.truth? Cells.plain bobRow) out.warnings mixedQuery.advanced = some .true ∧
      (Dialect.postgres.predicate? out.params out.sql).map (Predicate.truth Cells.plain bobRow) =
        some .true := by
  have hd : Dialect.postgres ∈ Dialect.all := by simp [Dialect.all]
  have hq : mixedQuery.NoText := Query.noText_of_tree rfl
  have hfields : ∀ f ∈ mixedQuery.fields, Sql.isIdentifier f = true → IsColumn f := by decide
  have hok : ∃ out, Compiler.default.compileWith .bound .postgres mixedQuery = .ok out ∧
      out.granularity = .daily := ⟨_, rfl, rfl⟩
  obtain ⟨out, h, hdaily⟩ := hok
  obtain ⟨meant, said, hmeant, -, hread, hkept⟩ :=
    (where_text_rounded .default hd .bound mixedQuery hq hfields h).1 Cells.plain bobRow
  have hleft : eraseTree out.warnings mixedTree = ⟨mixedTree.children.tail⟩ := by
    have hwait : condition ⟨"wait", some (.between false), .null, .and, false⟩ =
        .error (.malformedRange "wait" "BETWEEN") := by rfl
    have hagent : condition ⟨"agent", some (.compare .eq), .string "ann", .and, false⟩ =
        .ok (.compare "agent" .eq (.text "ann")) := by rfl
    have hlong : condition ⟨"wait", some (.compare .gt), .int 30, .or, false⟩ =
        .ok (.compare "wait" .gt (.int 30)) := by rfl
    have hanswered : condition ⟨"answered", some (.isTrue true), .null, .and, false⟩ =
        .ok (.compare "answered" .eq (.int 1)) := by rfl
    have hnote : condition ⟨"note", some (.isNull false), .null, .or, true⟩ = .ok (.isNull "note" true) := by rfl
    have hdeep : ¬ Compiler.default.settings.maxGroupDepth ≤ 0 := by decide
    rw [eraseTree_of_compiled .default hq h rfl]
    simp only [mixedTree, kept, hwait, hagent, hlong, hanswered, hnote, if_neg hdeep, List.tail_cons]
  have hbase : baseTruths Cells.plain bobRow (route .daily {}) mixedQuery = [.true, .true] := by
    decide +kernel
  have hwholes : FilterEvery (fun cond => ∀ n ∈ cond.wholes, Kept n) out.warnings mixedQuery.advanced := by
    intro t ht
    obtain rfl : mixedTree = t := Section.Advanced.tree.inj (Option.some.inj ht)
    rw [hleft]
    have hnone : ∀ n ∈ ([] : List Int), Kept n := fun n hn => absurd hn List.not_mem_nil
    have hthirty : ∀ n ∈ ([30] : List Int), Kept n := List.forall_mem_singleton.mpr (.inl (by decide))
    exact ⟨hnone, hthirty, ⟨hnone, hnone, trivial⟩, trivial⟩
  have hmeaning : filterTruth? (Condition.truth? Cells.plain bobRow) out.warnings mixedQuery.advanced =
      some .true := by
    show (eraseTree out.warnings mixedTree).truth? _ = _
    rw [hleft]
    decide +kernel
  obtain rfl : meant = .true := Option.some.inj (hmeant.symm.trans hmeaning)
  rw [hdaily, hkept hwholes] at hread
  refine ⟨out, h, hmeaning, hread.trans ?_⟩
  show some (Truth.all (baseTruths Cells.plain bobRow (route .daily {}) mixedQuery ++ [.true])) = _
  rw [hbase]
  rfl

/-- A count beyond the numbers of a column. -/
def manyInbound : Query := ({} : Query).withTree ⟨[.condition (inboundIs 9223372036854775809)]⟩

def manyRow : Row (Rat ⊕ String) := fun column =>
  if column = "inbound" then some (.inl 9223372036854775809) else none

/-- The row has the count that is asked for, and the text does not let it through. -/
theorem beyond_column_missed :
    ∃ out, Compiler.default.compileWith .inline .duckdb manyInbound = .ok out ∧ out.warnings = [] ∧
      filterTruth? (Condition.truth? Cells.plain manyRow) out.warnings manyInbound.advanced = some .true ∧
      Truth.all (baseTruths Cells.plain manyRow (route out.granularity {}) manyInbound ++ [.true]) = .true ∧
      (Dialect.duckdb.predicate? out.params out.sql).map (Predicate.truth Cells.plain manyRow) =
        some .false := by
  have hd : Dialect.duckdb ∈ Dialect.all := by simp [Dialect.all]
  have hq : manyInbound.NoText := Query.noText_of_tree rfl
  have hfields : ∀ f ∈ manyInbound.fields, Sql.isIdentifier f = true → IsColumn f := by decide
  obtain ⟨out, h⟩ : ∃ out, Compiler.default.compileWith .inline .duckdb manyInbound = .ok out := ⟨_, rfl⟩
  obtain ⟨p, hp, hout⟩ := compiled_of_ok .default manyInbound h
  obtain ⟨hgranularity, -, -, hplanned⟩ := plan_parts .default manyInbound hp
  have hdaily : out.granularity = .daily := hout ▸ hgranularity
  obtain ⟨e, htest⟩ : ∃ e, condition (inboundIs 9223372036854775809) = .ok e :=
    ⟨_, ((emits_wholeValue (by decide)).compared (c := inboundIs 9223372036854775809)
      (show Sql.isIdentifier (Text.trim "inbound") = true by decide) rfl rfl).compiled⟩
  have hwarnings : out.warnings = [] := by
    rw [hout]
    refine hplanned.trans ?_
    show [] ++ (tree 4 ⟨[.condition (inboundIs 9223372036854775809)]⟩).2 ++ [] = []
    simp only [tree, nodes, htest]
    rfl
  have hread {read : Condition → Option Truth} {t : Truth} (ht : read (inboundIs 9223372036854775809) = some t) :
      filterTruth? read out.warnings manyInbound.advanced = some t := by
    show (eraseTree out.warnings ⟨[.condition (inboundIs 9223372036854775809)]⟩).truth? read = some t
    rw [eraseTree_of_compiled .default hq h rfl, kept_condition_ok htest, kept]
    show (Node.truths? read [.condition _]).map joined = some t
    rw [Node.truths?, Node.truth?, ht]
    exact congrArg some (Sql.joined_singleton _ _)
  have hmeant : Condition.truth? Cells.plain manyRow (inboundIs 9223372036854775809) = some .true := by
    decide +kernel
  have hsaid : (inboundIs 9223372036854775809).rounded.truth? Cells.plain manyRow = some .false := by
    decide +kernel
  have hbase : baseTruths Cells.plain manyRow (route .daily {}) manyInbound = [] := by decide +kernel
  obtain ⟨said, hfilter, htext⟩ := text_truth Cells.plain manyRow .default hd .inline hq hfields h
  obtain rfl : .false = said := Option.some.inj ((hread hsaid).symm.trans hfilter)
  refine ⟨out, h, hwarnings, hread hmeant, ?_, htext.trans ?_⟩
  · rw [hdaily, hbase]
    rfl
  · show some (Truth.all (baseTruths Cells.plain manyRow (route out.granularity {}) manyInbound ++ [.false])) = _
    rw [hdaily, hbase]
    rfl

end BucketQuery.Compile
