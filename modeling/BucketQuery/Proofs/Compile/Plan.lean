import BucketQuery.Compile.Compiler
import BucketQuery.Proofs.Outcome
import BucketQuery.Proofs.Sql.Fragment

/-! What a compile settles before it writes anything.

The interval, the user's filter and the statement are found without regard to a dialect or a mode;
`Plan` is what is known then, and `compileWith_eq` says that a compile is its plan, written. A fact
about texts is so a fact about the rendering of one statement, and a fact about failure one about
plans. -/
namespace BucketQuery.Compile

open Section (Query)
open Sql (Dialect Expr LiteralMode Select)

/-! ### The interval -/

theorem resolveGranularity_eq (strict : Bool) (token : Option String) :
    resolveGranularity strict token = match (granularityOf token).2 with
      | none => .ok ((granularityOf token).1, [])
      | some t =>
        if strict then .error (.invalid (.unknownInterval t))
        else .ok ((granularityOf token).1, [.unknownGranularity t]) := by
  unfold resolveGranularity
  split
  · rename_i g h
    rw [h]
  · rename_i g t h
    rw [h]

/-- An unknown interval that is let pass is warned of. -/
theorem resolved_of_ok {strict : Bool} {token : Option String} {g : Granularity} {fallback : List Warning}
    (h : resolveGranularity strict token = .ok (g, fallback)) :
    g = (granularityOf token).1 ∧
      fallback = ((granularityOf token).2.map .unknownGranularity).toList := by
  rw [resolveGranularity_eq] at h
  cases hunknown : (granularityOf token).2 with
  | none =>
    rw [hunknown] at h
    obtain ⟨rfl, rfl⟩ := Prod.mk.inj (Except.ok.inj h)
    exact ⟨rfl, rfl⟩
  | some unknown =>
    rw [hunknown] at h
    cases strict with
    | true => cases h
    | false =>
      obtain ⟨rfl, rfl⟩ := Prod.mk.inj (Except.ok.inj h)
      exact ⟨rfl, rfl⟩

/-! ### The user's filter -/

/-- Condition text is examined, and then it matters whether it is allowed. -/
theorem advanced_text (s : CompilerSettings) (given : String) :
    advanced s (some (.text given)) =
      if (Text.trim given).isEmpty then .ok (none, [])
      else match Sql.forbidden? (Text.trim given) with
        | some hit => .error (.unsafeFilter (.forbidden hit))
        | none =>
          if s.allowRawFilters then .ok (some (.raw (Text.trim given)), [])
          else .error (.invalid .rawFiltersDisabled) := by
  rw [advanced]
  split
  · rfl
  · unfold checkText
    cases Sql.forbidden? (Text.trim given) with
    | some hit => rfl
    | none => rfl

/-- Condition text that is let pass is the filter, unless it is blank, and nothing is dropped from it. -/
theorem advanced_text_of_ok {s : CompilerSettings} {text : String} {filter : Option Expr}
    {dropped : List Warning} (h : advanced s (some (.text text)) = .ok (filter, dropped)) :
    filter = (if (Text.trim text).isEmpty then none else some (.raw (Text.trim text))) ∧ dropped = [] := by
  rw [advanced_text] at h
  split at h
  · rename_i hempty
    cases h
    exact ⟨(if_pos hempty).symm, rfl⟩
  · rename_i hempty
    split at h
    · cases h
    · split at h
      · cases h
        exact ⟨(if_neg hempty).symm, rfl⟩
      · cases h

/-- What is said of a filter: of a tree, what was dropped from it. -/
def filterWarnings (deepest : Nat) : Option Section.Advanced → List Warning
  | some (.tree t) => (tree deepest t).2
  | some (.text _) | none => []

theorem dropped_of_ok {s : CompilerSettings} {given : Option Section.Advanced} {filter : Option Expr}
    {dropped : List Warning} (h : advanced s given = .ok (filter, dropped)) :
    dropped = filterWarnings s.maxGroupDepth given := by
  cases given with
  | none =>
    cases h
    rfl
  | some given =>
    cases given with
    | tree t =>
      cases h
      rfl
    | text given => exact (advanced_text_of_ok h).2

/-! ### Warnings -/

/-- What is said of the interval. -/
def intervalWarnings (q : Query) : List Warning :=
  ((granularityOf q.timeInterval).2.map .unknownGranularity).toList

/-- What is said of a request beside its interval and its filter. -/
def requestWarnings (q : Query) : List Warning :=
  datesWarning q ++ (projection q.columns).2 ++ (groupKey q.groupBy).2

/-! ### Statements -/

theorem select_some (r : Route) (q : Query) (e : Expr) :
    select r q (some e) = (select r q none).withFilter e := by
  simp only [select, Select.withFilter, Option.map_none, Option.map_some, Option.toList_none,
    Option.toList_some, List.append_nil]

/-! ### Plans -/

structure Plan where
  granularity : Granularity
  statement : Select
  /-- The user's filter alone. -/
  filter : Option Expr
  warnings : List Warning

def Compiler.plan (c : Compiler) (q : Query) : Result Plan := do
  let (g, fallback) ← resolveGranularity c.settings.strictGranularity q.timeInterval
  let (filter, dropped) ← advanced c.settings q.advanced
  return {
    granularity := g
    statement := select (route g c.tables) q filter
    filter
    warnings :=
      fallback ++ dropped ++ datesWarning q ++ (projection q.columns).2 ++ (groupKey q.groupBy).2}

def Plan.filterSql (p : Plan) (d : Dialect) : Option String :=
  p.filter.map fun e => (e.render d .inline).sql

def Plan.compiled (p : Plan) (mode : LiteralMode) (d : Dialect) : Compiled where
  sql := (p.statement.render d mode).sql
  params := (p.statement.render d mode).params
  table := p.statement.table
  granularity := p.granularity
  filterSql := p.filterSql d
  warnings := p.warnings

variable (c : Compiler) (q : Query)

theorem compileWith_eq (mode : LiteralMode) (d : Dialect) :
    c.compileWith mode d q = (c.plan q).map fun p => p.compiled mode d := by
  unfold Compiler.compileWith Compiler.plan
  cases resolveGranularity c.settings.strictGranularity q.timeInterval with
  | error e => rfl
  | ok resolved =>
    cases advanced c.settings q.advanced with
    | error e => rfl
    | ok found => rfl

/-- A compile that succeeds writes a plan. -/
theorem compiled_of_ok {mode : LiteralMode} {d : Dialect} {out : Compiled}
    (h : c.compileWith mode d q = .ok out) : ∃ p, c.plan q = .ok p ∧ out = p.compiled mode d := by
  rw [compileWith_eq] at h
  cases hp : c.plan q with
  | error e =>
    rw [hp] at h
    cases h
  | ok p =>
    rw [hp] at h
    cases h
    exact ⟨p, rfl, rfl⟩

/-- Literals leave no parameters. -/
theorem inline_params {d : Dialect} {out : Compiled} (h : c.compileWith .inline d q = .ok out) :
    out.params = [] := by
  obtain ⟨p, -, rfl⟩ := compiled_of_ok c q h
  show (p.statement.render d .inline).params = []
  rw [p.statement.render_eq]
  rfl

/-- What a plan is made from. -/
theorem plan_of_ok {p : Plan} (h : c.plan q = .ok p) :
    ∃ g fallback filter dropped,
      resolveGranularity c.settings.strictGranularity q.timeInterval = .ok (g, fallback) ∧
      advanced c.settings q.advanced = .ok (filter, dropped) ∧
      p = ⟨g, select (route g c.tables) q filter, filter,
        fallback ++ dropped ++ datesWarning q ++ (projection q.columns).2 ++ (groupKey q.groupBy).2⟩ := by
  obtain ⟨⟨g, fallback⟩, hr, h⟩ := ok_of_bind h
  obtain ⟨⟨filter, dropped⟩, ha, h⟩ := ok_of_bind h
  cases h
  exact ⟨g, fallback, filter, dropped, hr, ha, rfl⟩

/-- What a plan holds of its request. -/
theorem plan_parts {p : Plan} (h : c.plan q = .ok p) :
    p.granularity = (granularityOf q.timeInterval).1 ∧
      advanced c.settings q.advanced =
        .ok (p.filter, filterWarnings c.settings.maxGroupDepth q.advanced) ∧
      p.statement = select (route p.granularity c.tables) q p.filter ∧
      p.warnings =
        intervalWarnings q ++ filterWarnings c.settings.maxGroupDepth q.advanced ++ requestWarnings q := by
  obtain ⟨g, fallback, filter, dropped, hr, ha, rfl⟩ := plan_of_ok c q h
  obtain ⟨hg, rfl⟩ := resolved_of_ok hr
  obtain rfl := dropped_of_ok ha
  refine ⟨hg, ha, rfl, ?_⟩
  simp only [intervalWarnings, requestWarnings, List.append_assoc]

end BucketQuery.Compile
