import BucketQuery.Proofs.Compile.Plan
import BucketQuery.Proofs.Sql.Written

/-! The two modes of a compile.

Main statement: an expression, a statement and a compiled request are each a list of texts and a
list of values that no dialect and no mode has a part in. Bound, the values give way to numbered
placeholders and become the parameters; inline, to their literals. All else that a compile answers
is the same in both modes. -/
namespace BucketQuery.Compile

open Section (Query)
open Sql (Dialect Expr Rendered SameStatement Select interleave)

/-- **Bound and inline renderings are the same statement.** Expressions and statements are texts
with values between them, whatever the dialect and mode; and so is what a compile writes, unless it
fails, which it then does in every dialect and mode alike. -/
theorem renderings_same_statement :
    (∀ e : Expr, ∃ texts values, SameStatement e.render texts values) ∧
    (∀ s : Select, ∃ texts values, SameStatement s.render texts values) ∧
    ∀ (c : Compiler) (q : Query),
      (∃ e, ∀ d mode, c.compileWith mode d q = .error e) ∨
      ∃ texts values table granularity warnings, texts.length = values.length + 1 ∧
        (∀ d, ∃ filterSql,
          c.compileWith .bound d q = .ok {
            sql := interleave texts ((List.range values.length).map d.placeholder)
            params := values, table, granularity, filterSql, warnings} ∧
          c.compileWith .inline d q = .ok {
            sql := interleave texts (values.map d.literal)
            params := [], table, granularity, filterSql, warnings}) ∧
        (∃ out, c.compileWith .bound .postgres q = .ok out ∧
          out.sql = interleave texts ((List.range' 1 values.length).map fun k => "$" ++ toString k)) ∧
        ∀ d ∈ [Dialect.duckdb, Dialect.mysql], ∃ out, c.compileWith .bound d q = .ok out ∧
          out.sql = interleave texts (List.replicate values.length "?") := by
  refine ⟨fun e => ⟨_, _, e.render_sameStatement⟩, fun s => ⟨_, _, s.render_sameStatement⟩, fun c q => ?_⟩
  simp only [compileWith_eq]
  cases hp : c.plan q with
  | error e => exact .inl ⟨e, fun d mode => rfl⟩
  | ok p =>
    obtain ⟨hlength, hbound, hinline⟩ := p.statement.render_sameStatement
    have hb (d : Dialect) : p.compiled .bound d = _ :=
      congrArg (fun r : Rendered =>
        (⟨r.sql, r.params, p.statement.table, p.granularity, p.filterSql d, p.warnings⟩ : Compiled))
        (hbound d)
    have hi (d : Dialect) : p.compiled .inline d = _ :=
      congrArg (fun r : Rendered =>
        (⟨r.sql, r.params, p.statement.table, p.granularity, p.filterSql d, p.warnings⟩ : Compiled))
        (hinline d)
    refine .inr ⟨_, _, p.statement.table, p.granularity, p.warnings, hlength, fun d => ?_, ?_, ?_⟩
    · exact ⟨p.filterSql d, congrArg Except.ok (hb d), congrArg Except.ok (hi d)⟩
    · refine ⟨_, congrArg Except.ok (hb .postgres), ?_⟩
      rw [Sql.postgres_placeholders]
    · intro d hd
      refine ⟨_, congrArg Except.ok (hb d), ?_⟩
      have hmark : d.placeholder = fun _ => "?" := by
        rcases List.mem_cons.mp hd with rfl | hd
        · rfl
        · rw [List.mem_singleton.mp hd]
          rfl
      rw [Sql.mark_placeholders hmark]

end BucketQuery.Compile
