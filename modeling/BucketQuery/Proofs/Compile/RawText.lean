import BucketQuery.Proofs.Compile.Contained
import BucketQuery.Proofs.Compile.WhereText
import BucketQuery.Proofs.Sql.RawText

/-! Condition text of the user's making.

A statement with condition text is the statement without it and the text in parentheses behind its
filters. Main statement, `raw_text_confined`: text that is balanced by the dialect's rule for literals in
single quotes can only take rows away from those that the base lets through. Text that is not can close the
parenthesis it is put in, and what it says next stands beside the base (`closing_text_escapes`). -/
namespace BucketQuery

namespace Sql

/-- The conditions that a text stands for where all parameters stand in front of it. -/
def Dialect.condition? (d : Dialect) (params : List Value) (text : String) : Option Predicate := do
  let marks ← d.scan text
  whole? (tokens params params.length (lex marks))

namespace Select

/-- The statement with condition text behind its filters. -/
def withText (s : Select) (text : String) : Select :=
  { s with filters := s.filters ++ [.nested (.raw text)] }

/-- What is written from the filters on up to the parenthesis of the text. -/
def upToText (s : Select) : List Piece := wherePieces s.filters ++ [.text " AND "]

variable {s : Select} {d : Dialect}

theorem withText_pieces (s : Select) (text : String) :
    (s.withText text).pieces =
      (s.head :: s.upToText) ++ .text "(" :: .text text :: .text ")" :: s.tail := by
  have hfilter : s.withText text = s.withFilter (.raw text) := rfl
  rw [hfilter, withFilter_pieces, front, upToText, ← List.cons_append]
  exact (List.append_assoc (s.head :: wherePieces s.filters) [Piece.text " AND "] _).symm

theorem withText_sql (s : Select) (text : String) (d : Dialect) (mode : LiteralMode) :
    ((s.withText text).render d mode).sql =
      (Piece.render d mode (s.head :: s.upToText)).sql ++ "(" ++ text ++ ")" ++
        Piece.inlineText d s.tail := by
  rw [render_eq, withText_pieces, Piece.render_eq, Piece.render_eq, Piece.textFrom_append,
    Piece.textFrom_text, Piece.textFrom_text, Piece.textFrom_text,
    Piece.textFrom_of_values _ _ _ s.tail_values]
  simp only [String.append_assoc]

theorem withText_params (s : Select) (text : String) (d : Dialect) (mode : LiteralMode) :
    ((s.withText text).render d mode).params = (Piece.render d mode (s.head :: s.upToText)).params := by
  have hrest : Piece.values (.text "(" :: .text text :: .text ")" :: s.tail) = [] := s.tail_values
  rw [render_eq, withText_pieces, Piece.render_eq, Piece.render_eq, Piece.params_append,
    Piece.params_of_values mode hrest, List.append_nil]

theorem upToText_jointed (s : Select) : Piece.Jointed (s.head :: s.upToText) := by
  have h := (s.withText "").pieces_jointed
  rw [withText_pieces] at h
  exact (List.isChain_append.mp h).1

theorem tail_jointed (s : Select) : Piece.Jointed s.tail := by
  have h := s.pieces_jointed
  rw [pieces, ← List.cons_append] at h
  exact (List.isChain_append.mp h).2.1

theorem upToText_within (h : s.Named) : Piece.Within isStatementChar (s.head :: s.upToText) := by
  obtain ⟨hhead, hrest⟩ := Piece.within_text.mp (pieces_within h)
  exact Piece.within_text.mpr ⟨hhead, Piece.within_append.mpr ⟨(Piece.within_append.mp hrest).1,
    Piece.within_text.mpr ⟨by decide, Piece.within_nil⟩⟩⟩

/-! ### Reading the statement -/

section Reads
variable {f : Value → List Token} {fill : Nat → Value → List Mark} {params : List Value} {inner : List Mark}

/-- The lexemes of the clause: those of the filters, the text's own in parentheses, and the tail's. -/
theorem clause_withText (hnamed : s.Named) :
    whereClause? (lex (Piece.marksWith fill 0 (s.head :: s.upToText) ++
        .plain '(' :: (inner ++ .plain ')' :: Piece.inlineMarks d s.tail))) =
      some (firstLexemes ++ (Piece.lexemesWith fill 0 s.upToText ++ .symbol '(' ::
        (lex inner ++ .symbol ')' :: Piece.lexemesWith (fun _ v => v.marks d) 0 s.tail))) := by
  have hopening (ms : List Mark) : lex (.plain '(' :: ms) = .symbol '(' :: lex ms := rfl
  have hclosing (ms : List Mark) : lex (.plain ')' :: ms) = .symbol ')' :: lex ms := rfl
  have hhead : Piece.lexemesWith fill 0 (s.head :: s.upToText) =
      lexText ("SELECT " ++ s.projection ++ " FROM " ++ s.table ++ " WHERE 1=1") ++
        Piece.lexemesWith fill 0 s.upToText := rfl
  rw [lex_append (.inr rfl), hopening, lex_append (.inr rfl), hclosing,
    Piece.lex_marksWith fill 0 s.upToText_jointed, Piece.inlineMarks_marksWith d 0,
    Piece.lex_marksWith _ 0 s.tail_jointed, hhead, List.append_assoc, whereClause_head hnamed]

theorem tokens_withText (hnamed : s.Named)
    (htokens : tokens params 0 (Piece.lexemesWith fill 0 s.upToText) = Piece.tokens f s.upToText)
    (hasks : (Piece.lexemesWith fill 0 s.upToText).countP Lexeme.asks = params.length) :
    tokens params 0 (firstLexemes ++ (Piece.lexemesWith fill 0 s.upToText ++ .symbol '(' ::
        (lex inner ++ .symbol ')' :: Piece.lexemesWith (fun _ v => v.marks d) 0 s.tail))) =
      joinBy .and ((firstLexemes.map (Lexeme.token [] 0) ::
          s.filters.map fun e => Piece.tokens f e.pieces) ++
          [.opening :: (tokens params params.length (lex inner) ++ [.closing])]) ++
        Piece.tokens (inlineTokens d) s.tail := by
  have hfree : ∀ l ∈ firstLexemes, l.asks = false := by decide
  have hopening (met : Nat) (ls : List Lexeme) :
      tokens params met (.symbol '(' :: ls) = .opening :: tokens params met ls := rfl
  have hclosing (met : Nat) (ls : List Lexeme) :
      tokens params met (.symbol ')' :: ls) = .closing :: tokens params met ls := rfl
  have hand : textTokens " AND " = [.keyword .and] := by decide
  have hup : Piece.tokens f s.upToText = Piece.tokens f (wherePieces s.filters) ++ [.keyword .and] := by
    rw [upToText, Piece.tokens_append, Piece.tokens, hand]
    rfl
  rw [tokens_append_free params 0 hfree, tokens_append, htokens, hasks, Nat.zero_add, hopening,
    tokens_append, hclosing, Piece.tokens_inline (tail_within hnamed), hup,
    joinBy_concat .and (List.cons_ne_nil _ _), ← joinBy_filters]
  simp only [List.append_assoc, List.cons_append, List.nil_append]

variable {Cell : Type} {w : Cells Cell} {row : Row Cell} {ts : List Token}

section Clause
variable (hf : Stands f) {filters : List Expr}
  (hfilters : ∀ e ∈ filters, e.Over IsColumn ∧ e.Layered false) (hts : Closes 0 ts)
  {tail clause : List Token}
  (hclause : clause = joinBy .and ((firstLexemes.map (Lexeme.token [] 0) ::
    filters.map fun e => Piece.tokens f e.pieces) ++ [.opening :: (ts ++ [.closing])]) ++ tail)
include hf hfilters hts hclause

/-- The filters and a condition in parentheses read as one run. -/
theorem clause_read (w : Cells Cell) (row : Row Cell) (htail : endsClause tail = true) {r : Predicate}
    (h : whole? ts = some r) :
    ∃ p, disjunction? (2 * clause.length) clause = some (p, tail) ∧
      p.truth w row = Truth.all (filters.map (Expr.truth w row) ++ [r.truth w row]) := by
  obtain ⟨hand, hor⟩ := not_connective_of_endsClause htail
  obtain ⟨us, hus⟩ : ∃ us, us = filterUnits w row f filters ++
      [(.opening :: (ts ++ [.closing]), r.truth w row)] := ⟨_, rfl⟩
  have hread : ∀ u ∈ us, ReadsUnit w row u.1 u.2 := by
    rw [hus, List.forall_mem_append]
    exact ⟨filterUnits_read hf hfilters, List.forall_mem_singleton.mpr (reads_enclosed hts h)⟩
  have hrun : ReadsDisjunction w row (joinBy .and (us.map Prod.fst)) (Truth.all (us.map Prod.snd)) :=
    (reads_conjunction us (by simp [hus]) hread).alone
  have htokens : clause = joinBy .and (us.map Prod.fst) ++ tail := by
    rw [hclause, hus, List.map_append, filterUnits_tokens]
    rfl
  have htruth : Truth.all (us.map Prod.snd) =
      Truth.all (filters.map (Expr.truth w row) ++ [r.truth w row]) := by
    rw [hus, List.map_append, Truth.all_append, filterUnits_truth, Truth.all_append]
    rfl
  rw [htokens, ← htruth]
  exact hrun _ tail (by rw [List.length_append]; omega) hand hor

/-- With something else in the parentheses nothing is read. -/
theorem clause_unread (h : whole? ts = none) : disjunction? (2 * clause.length) clause = none := by
  have hlength : clause.length = (joinBy .and ((firstLexemes.map (Lexeme.token [] 0) ::
      filters.map fun e => Piece.tokens f e.pieces) ++ [.opening :: (ts ++ [.closing])])).length +
        tail.length := by
    rw [hclause, List.length_append]
  have hpos : 0 < clause.length := by
    rw [hlength, List.cons_append, length_joinBy_cons _ _ (by simp)]
    omega
  obtain ⟨fuel, hfuel⟩ : ∃ fuel, 2 * clause.length = fuel + 1 := ⟨2 * clause.length - 1, by omega⟩
  have hconjunction : conjunction? fuel clause = none := by
    have hunits : ∀ u ∈ filterUnits Cells.plain (fun _ => none) f filters,
        ReadsUnit Cells.plain (fun _ => none) u.1 u.2 := filterUnits_read hf hfilters
    have hrun := conjunction_unread _ hunits (unread_enclosed hts h tail) fuel
    rw [filterUnits_tokens] at hrun
    rw [hclause]
    exact hrun (by omega)
  rw [hfuel, disjunction_succ, level_eq]
  dsimp only
  rw [hconjunction]
  rfl

end Clause

/-- What a statement with balanced text is read as, from a scan whose values read as operands. -/
theorem reads_of_text_scan (hnamed : s.Named)
    (hfilters : ∀ e ∈ s.filters, e.Over IsColumn ∧ e.Layered false) (hf : Stands f) {sql : String}
    (hscan : d.scan sql = some (Piece.marksWith fill 0 (s.head :: s.upToText) ++
      .plain '(' :: (inner ++ .plain ')' :: Piece.inlineMarks d s.tail)))
    (hbalanced : Mark.Balanced inner)
    (htokens : tokens params 0 (Piece.lexemesWith fill 0 s.upToText) = Piece.tokens f s.upToText)
    (hasks : (Piece.lexemesWith fill 0 s.upToText).countP Lexeme.asks = params.length) :
    (d.predicate? params sql).map (Predicate.truth w row) =
      (whole? (tokens params params.length (lex inner))).map fun p =>
        Truth.all (s.filters.map (Expr.truth w row) ++ [p.truth w row]) := by
  have hcloses : Closes 0 (tokens params params.length (lex inner)) := by
    rw [Closes, brackets_tokens]
    exact hbalanced
  have hends : endsClause (Piece.tokens (inlineTokens d) s.tail) = true := tail_endsClause s
  cases h : whole? (tokens params params.length (lex inner)) with
  | some r =>
    obtain ⟨p, hp, ht⟩ :=
      clause_read hf hfilters hcloses (tokens_withText hnamed htokens hasks) w row hends h
    have hpredicate : d.predicate? params sql = some p := by
      rw [Dialect.predicate?, hscan]
      simp only [Option.bind_eq_bind, Option.bind_some, clause_withText hnamed, hp, hends]
      rfl
    rw [hpredicate, Option.map_some, Option.map_some, ht]
  | none =>
    have hp := clause_unread hf hfilters hcloses (tokens_withText (d := d) hnamed htokens hasks) h
    have hpredicate : d.predicate? params sql = none := by
      rw [Dialect.predicate?, hscan]
      simp only [Option.bind_eq_bind, Option.bind_some, clause_withText hnamed, hp, Option.bind_none]
    rw [hpredicate]
    rfl

/-- **Balanced text is one condition more.** A statement with balanced text behind its filters reads, in
either mode, as the filters and what the text reads as by itself, joined by AND; it cannot be read if
the text cannot. -/
theorem reads_withText (hd : d ∈ Dialect.all) (mode : LiteralMode) (hnamed : s.Named)
    (hfilters : ∀ e ∈ s.filters, e.Over IsColumn ∧ e.Layered false) {text : String}
    (h : d.balanced text = true) :
    (d.predicate? ((s.withText text).render d mode).params ((s.withText text).render d mode).sql).map
        (Predicate.truth w row) =
      (d.condition? ((s.withText text).render d mode).params text).map fun p =>
        Truth.all (s.filters.map (Expr.truth w row) ++ [p.truth w row]) := by
  obtain ⟨inner, hinner, hbalanced⟩ : ∃ inner, d.scan text = some inner ∧ Mark.Balanced inner := by
    rw [Dialect.balanced] at h
    split at h
    · rename_i inner hinner
      exact ⟨inner, hinner, of_decide_eq_true h⟩
    · cases h
  have hcondition (params : List Value) : d.condition? params text =
      whole? (tokens params params.length (lex inner)) := by
    rw [Dialect.condition?, hinner]
    rfl
  have hwithin := upToText_within hnamed
  have hrest := (Piece.within_text.mp hwithin).2
  have hback : d.scan (Piece.inlineText d s.tail) = some (Piece.inlineMarks d s.tail) :=
    Piece.scan_inlineText hd s.tail_jointed (tail_within hnamed)
  rw [hcondition, withText_sql, withText_params]
  cases mode with
  | bound =>
    refine reads_of_text_scan hnamed hfilters boundTokens_stands
      (scan_parenthesized d ?_ hinner hback) hbalanced (Piece.tokens_bound hd hrest 0 rfl)
      (Piece.asks_bound hd hrest 0)
    rw [← Piece.boundMarks_marksWith]
    exact Piece.scan_boundText hd 0 hwithin
  | inline =>
    refine reads_of_text_scan hnamed hfilters (inlineTokens_stands d)
      (scan_parenthesized d ?_ hinner hback) hbalanced (Piece.tokens_inline hrest 0 0)
      (Piece.asks_inline hrest 0)
    rw [← Piece.inlineMarks_marksWith]
    exact Piece.scan_inlineText hd s.upToText_jointed hwithin

/-- In either mode, what stands in front of the text's parenthesis and what stands behind it end outside
of literals. -/
theorem withText_encloses_iff (hd : d ∈ Dialect.all) (mode : LiteralMode) (hnamed : s.Named)
    (text : String) :
    ∃ before after,
      ((s.withText text).render d mode).sql = before ++ "(" ++ text ++ ")" ++ after ∧
        (d.Encloses before text after ↔ d.balanced text = true) := by
  refine ⟨_, _, withText_sql s text d mode, ?_⟩
  have hwithin := upToText_within hnamed
  have hback := Piece.scan_inlineText hd s.tail_jointed (tail_within hnamed)
  cases mode with
  | bound => exact encloses_iff d (Piece.scan_boundText hd 0 hwithin) hback
  | inline => exact encloses_iff d (Piece.scan_inlineText hd s.upToText_jointed hwithin) hback

end Reads

end Select

end Sql

namespace Compile

open Section (Query)
open Sql (Cells Dialect Expr LiteralMode Predicate Row Truth)

/-! ### Compiles -/

section Meaning
variable {Cell : Type} (w : Cells Cell) (row : Row Cell)

/-- What condition text says by itself; blank text says nothing. -/
def textTruth? (d : Dialect) (params : List Sql.Value) (text : String) : Option Truth :=
  if (Text.trim text).isEmpty then some .true
  else (d.condition? params (Text.trim text)).map (Predicate.truth w row)

theorem baseFilters_read (g : Granularity) (tables : Tables) (q : Query) :
    ∀ e ∈ baseFilters (route g tables) q, e.Over Sql.IsColumn ∧ e.Layered false := fun e he =>
  ⟨baseFilters_over g tables q fixedColumns_columns e he, baseFilters_layered _ q e he⟩

/-- A statement with condition text is the base with the text behind it, if it is not blank. -/
theorem text_statement {s : CompilerSettings} {text : String} {filter : Option Expr}
    {dropped : List Warning} (h : advanced s (some (.text text)) = .ok (filter, dropped)) (r : Route)
    (q : Query) :
    select r q filter = if (Text.trim text).isEmpty then select r q none
      else (select r q none).withText (Text.trim text) := by
  rw [(advanced_text_of_ok h).1]
  split
  · rfl
  · exact select_some r q _

/-- The statement reads as its base and what the text says. -/
theorem reads_text (c : Compiler) {d : Dialect} (hd : d ∈ Dialect.all) (mode : LiteralMode)
    (g : Granularity) (q : Query) {text : String} {s : Sql.Select}
    (hs : s = if (Text.trim text).isEmpty then select (route g c.tables) q none
      else (select (route g c.tables) q none).withText (Text.trim text))
    (h : d.balanced (Text.trim text) = true) :
    (d.predicate? (s.render d mode).params (s.render d mode).sql).map (Predicate.truth w row) =
      (textTruth? w row d (s.render d mode).params text).map fun t =>
        Truth.all (baseTruths w row (route g c.tables) q ++ [t]) := by
  have hnamed : (select (route g c.tables) q none).Named := select_named c g q fun e he => by cases he
  have hbase : (select (route g c.tables) q none).filters = baseFilters (route g c.tables) q :=
    List.append_nil _
  have hfilters := hbase ▸ baseFilters_read g c.tables q
  have htruths := hbase ▸ baseFilters_truth w row (route g c.tables) q
  rw [textTruth?]
  split at hs
  · rename_i hempty
    rw [hs, if_pos hempty, Sql.Select.reads hd mode hnamed hfilters, htruths, Option.map_some,
      Truth.all_append]
    simp [Truth.all]
  · rename_i hempty
    rw [hs, if_neg hempty, Sql.Select.reads_withText hd mode hnamed hfilters h, htruths,
      Option.map_map]
    rfl

/-- **Balanced text stays behind the base.** The parenthesis in front of the user's condition text is
closed by the one behind it exactly when the text is balanced. Where it is, the statement reads in
either mode as its base and the text as one unit, joined by AND, so that it lets no row through that
the base refuses.

The text is scanned for literals in single quotes and nothing else (`Dialect.scan`). Where it has identifiers
in quotes, literals between dollar signs or, in the dialect that knows them, literals in double quotes or
comments behind a `#`, the parentheses in those count here like any others, and nothing is said of how a
warehouse reads them. -/
theorem raw_text_confined (c : Compiler) {d : Dialect} (hd : d ∈ Dialect.all) (mode : LiteralMode)
    (q : Query) {text : String} (htext : q.advanced = some (.text text)) {out : Compiled}
    (h : c.compileWith mode d q = .ok out) :
    ((Text.trim text).isEmpty = false → ∃ before after,
      out.sql = before ++ "(" ++ Text.trim text ++ ")" ++ after ∧
        (d.Encloses before (Text.trim text) after ↔ d.balanced (Text.trim text) = true)) ∧
    (d.balanced (Text.trim text) = true →
      (d.predicate? out.params out.sql).map (Predicate.truth w row) =
          (textTruth? w row d out.params text).map (fun t =>
            Truth.all (baseTruths w row (route out.granularity c.tables) q ++ [t])) ∧
        ((d.predicate? out.params out.sql).map (Predicate.truth w row) = some .true →
          ∀ t ∈ baseTruths w row (route out.granularity c.tables) q, t = .true)) := by
  obtain ⟨p, hp, rfl⟩ := compiled_of_ok c q h
  obtain ⟨g, fallback, filter, dropped, _, ha, rfl⟩ := plan_of_ok c q hp
  rw [htext] at ha
  have hstatement := text_statement ha (route g c.tables) q
  refine ⟨fun hempty => ?_, fun hbalanced => ?_⟩
  · rw [hempty, if_neg Bool.false_ne_true] at hstatement
    have hnamed : (select (route g c.tables) q none).Named :=
      select_named c g q fun e he => by cases he
    obtain ⟨before, after, hsql, hencloses⟩ :=
      Sql.Select.withText_encloses_iff hd mode hnamed (Text.trim text)
    rw [← hstatement] at hsql
    exact ⟨before, after, hsql, hencloses⟩
  · have hread := reads_text w row c hd mode g q hstatement hbalanced
    refine ⟨hread, fun htrue t ht => ?_⟩
    obtain ⟨u, _, hu⟩ := Option.map_eq_some_iff.mp (hread.symm.trans htrue)
    exact Truth.all_eq_true.mp hu t (List.mem_append_left _ ht)

end Meaning

/-- A compiler that takes condition text. -/
def openCompiler : Compiler := { Compiler.default with settings := { allowRawFilters := true } }

def textQuery (text : String) : Query :=
  { (({} : Query).withQueues ["sales"]) with advanced := some (.text text) }

/-- Ann has answered after a wait of 42, and has made no note. -/
def mixedRow : Row (Rat ⊕ String) := fun column =>
  if column = "agent" then some (.inr "ann")
  else if column = "wait" then some (.inl 42)
  else if column = "answered" then some (.inl 1)
  else none

/-- A parenthesis in a literal, and two around conditions. -/
def quotedText : String := "agent = ')' OR (wait > 30 AND note IS NULL)"

theorem quoted_text_confined :
    ∃ out before after, openCompiler.compileWith .bound .mysql (textQuery quotedText) = .ok out ∧
      out.sql = before ++ "(" ++ quotedText ++ ")" ++ after ∧
      Dialect.mysql.Encloses before quotedText after ∧
      (Dialect.mysql.predicate? out.params out.sql).map (Predicate.truth Cells.plain mixedRow) =
        (textTruth? Cells.plain mixedRow .mysql out.params quotedText).map fun t =>
          Truth.all (baseTruths Cells.plain mixedRow (route out.granularity {}) (textQuery quotedText) ++
            [t]) := by
  have hd : Dialect.mysql ∈ Dialect.all := by simp [Dialect.all]
  have htrim : Text.trim quotedText = quotedText := by decide +kernel
  have hbalanced : Dialect.mysql.balanced (Text.trim quotedText) = true := by decide +kernel
  have hok : ∃ out, openCompiler.compileWith .bound .mysql (textQuery quotedText) = .ok out := ⟨_, rfl⟩
  obtain ⟨out, h⟩ := hok
  obtain ⟨hencloses, hreads⟩ :=
    raw_text_confined Cells.plain mixedRow openCompiler hd .bound (textQuery quotedText) rfl h
  obtain ⟨before, after, hsql, hiff⟩ := hencloses (by decide +kernel)
  have hread := (hreads hbalanced).1
  rw [htrim] at hsql hiff hbalanced
  exact ⟨out, before, after, h, hsql, hiff.mpr hbalanced, hread⟩

/-- Condition text that closes the parenthesis it is put in, and opens another. -/
def closingText : String := "1=1) OR (1=1"

/-- A row of another queue. -/
def supportRow : Row (Rat ⊕ String) := fun column =>
  if column = "queue" then some (.inr "support") else none

theorem closing_text_escapes :
    ∃ out before after, openCompiler.compileWith .inline .duckdb (textQuery closingText) = .ok out ∧
      out.sql = before ++ "(" ++ closingText ++ ")" ++ after ∧
      ¬ Dialect.duckdb.Encloses before closingText after ∧
      (Dialect.duckdb.predicate? out.params out.sql).map (Predicate.truth Cells.plain supportRow) =
        some .true ∧
      Truth.false ∈
        baseTruths Cells.plain supportRow (route out.granularity {}) (textQuery closingText) := by
  have hd : Dialect.duckdb ∈ Dialect.all := by simp [Dialect.all]
  have hnamed : (select (route .daily {}) (textQuery closingText) none).Named :=
    select_named openCompiler .daily _ fun e he => by cases he
  obtain ⟨before, after, hsql, hiff⟩ :=
    Sql.Select.withText_encloses_iff hd .inline hnamed closingText
  refine ⟨_, before, after, rfl, hsql, ?_, ?_, ?_⟩
  · rw [hiff]
    decide +kernel
  · decide +kernel
  · decide +kernel

end Compile

end BucketQuery
