import BucketQuery.Proofs.Compile.Columns
import BucketQuery.Proofs.Sql.Fragment
import BucketQuery.Proofs.Sql.Scan

/-! Inline values stay inside their literals.

Whatever strings a request holds, the text that is compiled with its values inline scans, by the
rules of the dialect it is for, to literals that hold exactly the texts and timestamps that would
have been parameters, in order, and to a few harmless characters between them. -/
namespace BucketQuery

namespace Sql

/-- As a dialect scans it, a text has literals of certain contents and nothing else that could end a
literal, a statement or a line: outside of literals there are identifier characters, blanks and
the punctuation of statements, and minus signs in front of numbers only. -/
structure Contained (d : Dialect) (text : String) (contents : List String) (ms : List Mark) :
    Prop where
  scanned : d.scan text = some ms
  literals : Mark.contents ms = contents
  plain : ∀ c, .plain c ∈ ms → isStatementChar c = true ∨ c = '-'
  minus : Mark.MinusLeads ms

namespace Mark

@[simp] theorem contents_append (as bs : List Mark) : contents (as ++ bs) = contents as ++ contents bs := by
  induction as with
  | nil => rfl
  | cons m as ih => cases m <;> simp [contents, ih]

@[simp] theorem contents_plains (cs : List Char) : contents (plains cs) = [] := by
  induction cs with
  | nil => rfl
  | cons c cs ih => exact ih

theorem minusLeads_append {as bs : List Mark} (ha : MinusLeads as) (hb : MinusLeads bs) :
    MinusLeads (as ++ bs) := by
  induction as with
  | nil => exact hb
  | cons m as ih =>
    refine ⟨fun hm => ?_, ih ha.2⟩
    obtain ⟨c, later, rfl, hc⟩ := ha.1 hm
    exact ⟨c, later ++ bs, rfl, hc⟩

theorem minusLeads_plains {cs : List Char} (h : '-' ∉ cs) : MinusLeads (plains cs) := by
  induction cs with
  | nil => trivial
  | cons c cs ih =>
    rw [List.mem_cons, not_or] at h
    refine ⟨fun hm => ?_, ih h.2⟩
    cases hm
    exact absurd rfl h.1

end Mark

variable {d : Dialect}

theorem marks_contents (v : Value) : Mark.contents (v.marks d) = v.content?.toList := by
  unfold Value.marks
  cases hc : v.content? with
  | some s => simp [Mark.contents]
  | none => exact Mark.contents_plains _

theorem marks_plain (v : Value) {c : Char} (h : .plain c ∈ v.marks d) :
    isStatementChar c = true ∨ c = '-' := by
  unfold Value.marks at h
  cases hc : v.content? with
  | some s => simp [hc] at h
  | none =>
    rw [hc] at h
    obtain ⟨body, hbody, hcs⟩ := literal_bare (d := d) hc
    have hstatement := List.all_eq_true.mp (statementChars_of_identifierChars hbody) c
    have hm := Mark.plain_mem_plains.mp h
    rcases hcs with hcs | ⟨hcs, _⟩
    · rw [hcs] at hm
      exact .inl (hstatement hm)
    · rw [hcs] at hm
      rcases List.mem_cons.mp hm with hm | hm
      · exact .inr hm
      · exact .inl (hstatement hm)

theorem marks_minusLeads (v : Value) : Mark.MinusLeads (v.marks d) := by
  unfold Value.marks
  cases hc : v.content? with
  | some s => exact ⟨fun h => (nomatch h), trivial⟩
  | none =>
    obtain ⟨body, hbody, hcs⟩ := literal_bare (d := d) hc
    have hminus : '-' ∉ body := not_mem_of_all hbody (by decide)
    have hrest := Mark.minusLeads_plains hminus
    rcases hcs with hcs | ⟨hcs, c, rest, hlead, hdigit⟩
    · rw [hcs]
      exact hrest
    · rw [hcs]
      exact ⟨fun _ => ⟨c, Mark.plains rest, by rw [hlead]; rfl, hdigit⟩, hrest⟩

theorem inlineMarks_contents (ps : List Piece) :
    Mark.contents (Piece.inlineMarks d ps) = (Piece.values ps).filterMap Value.content? := by
  induction ps with
  | nil => rfl
  | cons p rest ih =>
    cases p with
    | text s =>
      rw [Piece.inlineMarks, Mark.contents_append, Mark.contents_plains, ih]
      rfl
    | value v =>
      rw [Piece.inlineMarks, Mark.contents_append, marks_contents, ih, Piece.values]
      cases hc : v.content? with
      | none => simp [hc]
      | some s => simp [hc]

theorem inlineMarks_plain {ps : List Piece} (hw : Piece.Within isStatementChar ps) {c : Char}
    (h : .plain c ∈ Piece.inlineMarks d ps) : isStatementChar c = true ∨ c = '-' := by
  induction ps with
  | nil => cases h
  | cons p rest ih =>
    cases p with
    | text s =>
      obtain ⟨hs, hw⟩ := Piece.within_text.mp hw
      rcases List.mem_append.mp h with h | h
      · exact .inl (List.all_eq_true.mp hs c (Mark.plain_mem_plains.mp h))
      · exact ih hw h
    | value v =>
      rcases List.mem_append.mp h with h | h
      · exact marks_plain v h
      · exact ih (Piece.within_value.mp hw) h

theorem inlineMarks_minusLeads {ps : List Piece} (hw : Piece.Within isStatementChar ps) :
    Mark.MinusLeads (Piece.inlineMarks d ps) := by
  induction ps with
  | nil => trivial
  | cons p rest ih =>
    cases p with
    | text s =>
      obtain ⟨hs, hw⟩ := Piece.within_text.mp hw
      have hminus : '-' ∉ s.toList := not_mem_of_all hs (by decide)
      exact Mark.minusLeads_append (Mark.minusLeads_plains hminus) (ih hw)
    | value v => exact Mark.minusLeads_append (marks_minusLeads v) (ih (Piece.within_value.mp hw))

/-- The inline text of pieces holds the contents of their values, and they stay inside. -/
theorem inlineText_contained (hd : d ∈ Dialect.all) {ps : List Piece} (hj : Piece.Jointed ps)
    (hw : Piece.Within isStatementChar ps) :
    Contained d (Piece.inlineText d ps) ((Piece.values ps).filterMap Value.content?)
      (Piece.inlineMarks d ps) where
  scanned := Piece.scan_inlineText hd hj hw
  literals := inlineMarks_contents ps
  plain _ h := inlineMarks_plain hw h
  minus := inlineMarks_minusLeads hw

theorem Expr.inline_contained (hd : d ∈ Dialect.all) {e : Expr} (h : e.Over (isIdentifier · = true)) :
    ∃ ms, Contained d (e.render d .inline).sql ((e.render d .bound).params.filterMap Value.content?) ms := by
  rw [e.render_eq, e.render_eq]
  exact ⟨_, inlineText_contained hd e.pieces_jointed (pieces_within h)⟩

theorem Select.inline_contained (hd : d ∈ Dialect.all) {s : Select} (h : s.Named) :
    ∃ ms, Contained d (s.render d .inline).sql ((s.render d .bound).params.filterMap Value.content?) ms := by
  rw [s.render_eq, s.render_eq]
  exact ⟨_, inlineText_contained hd s.pieces_jointed (pieces_within h)⟩

end Sql

namespace Compile

open Section (Query)
open Sql (Contained Dialect Expr Value)

variable {c : Compiler} {q : Query} {p : Plan}

/-- The parameters of the user's filter are the last ones of its statement. -/
theorem filter_params_suffix (hp : c.plan q = .ok p) {e : Expr} (he : p.filter = some e) (d : Dialect) :
    (e.render d .bound).params <:+ (p.statement.render d .bound).params := by
  obtain ⟨-, -, hstatement, -⟩ := plan_parts c q hp
  rw [he, select_some] at hstatement
  rw [hstatement]
  exact ⟨_, (Sql.Select.withFilter_params _ e d .bound).symm⟩

/-- **No injection.** Scanned by the rules of its dialect, inline text ends outside of literals, its
literals hold the texts and timestamps that would be parameters, one for one and in order, and
nothing outside of them can open, end or hide anything. So does the text of the filter alone,
whose parameters are the last of the statement. -/
theorem inline_text_contained (c : Compiler) {d : Dialect} (hd : d ∈ Dialect.all) (q : Query)
    (hq : q.NoText) {out : Compiled} (h : c.compileWith .inline d q = .ok out) :
    ∃ bound, c.compileWith .bound d q = .ok bound ∧
      (∃ ms, Contained d out.sql (bound.params.filterMap Value.content?) ms) ∧
      ∀ text, out.filterSql = some text → ∃ e dropped,
        advanced c.settings q.advanced = .ok (some e, dropped) ∧
        (e.render d .bound).params <:+ bound.params ∧
        ∃ ms, Contained d text ((e.render d .bound).params.filterMap Value.content?) ms := by
  obtain ⟨p, hp, rfl⟩ := compiled_of_ok c q h
  refine ⟨p.compiled .bound d, ?_, Sql.Select.inline_contained hd (plan_named hq hp), ?_⟩
  · rw [compileWith_eq, hp]
    rfl
  · intro text htext
    obtain ⟨e, he, rfl⟩ := Option.map_eq_some_iff.mp htext
    have hover := (plan_over hq hp (by decide) fun _ _ h => h).2 e he
    have hsuffix := filter_params_suffix hp he d
    obtain ⟨g, fallback, filter, dropped, _, ha, rfl⟩ := plan_of_ok c q hp
    cases he
    exact ⟨e, dropped, ha, hsuffix, Sql.Expr.inline_contained hd hover⟩

/-- Quotes, backslashes and comment marks in two queues and in the filter. -/
def hostileQuery : Query :=
  (({} : Query).withQueues ["\\' OR 1=1 -- ", "''"]).withTree
    ⟨[.condition (.new "agent" "=" (.string "it\\'; DROP \\"))]⟩

theorem hostile_text_contained :
    ∃ out bound : Compiled, Compiler.default.compileWith .inline .mysql hostileQuery = .ok out ∧
      Compiler.default.compileWith .bound .mysql hostileQuery = .ok bound ∧
      ∃ ms, Contained .mysql out.sql (bound.params.filterMap Value.content?) ms := by
  have hd : Dialect.mysql ∈ Dialect.all := by simp [Dialect.all]
  have hq : hostileQuery.NoText := Query.noText_of_tree rfl
  have hok : ∃ out, Compiler.default.compileWith .inline .mysql hostileQuery = .ok out := ⟨_, rfl⟩
  obtain ⟨out, h⟩ := hok
  obtain ⟨bound, hb, hc, _⟩ := inline_text_contained .default hd hostileQuery hq h
  exact ⟨out, bound, h, hb, hc⟩

end Compile

end BucketQuery
