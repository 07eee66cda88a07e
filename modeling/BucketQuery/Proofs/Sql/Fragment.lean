import BucketQuery.Proofs.Sql.Pieces
import BucketQuery.Proofs.Sql.Written

/-! Statements in parts.

The text of some pieces goes on where that of the pieces in front of them ends, and its placeholders count
on from there (`textFrom_append`); inline there is nothing to count. So a statement with one more
condition is known from the statement and the condition: the text is opened in front of its clauses, the
parameters grow at their end (`Select.withFilter_sql`, `Select.withFilter_params`). -/
namespace BucketQuery.Sql

/-- Texts with values between them as a part of a statement, where the placeholders of the values, if there
are any, count from `met` on. -/
def fragmentText (d : Dialect) (mode : LiteralMode) (met : Nat) (texts : List String)
    (values : List Value) : String :=
  match mode with
  | .bound => interleave texts ((List.range' met values.length).map d.placeholder)
  | .inline => interleave texts (values.map d.literal)

theorem Piece.textFrom_eq (d : Dialect) (mode : LiteralMode) (i : Nat) (ps : List Piece) :
    textFrom d mode i ps = fragmentText d mode i (texts ps) (values ps) := by
  cases mode with
  | bound =>
    have h := boundText_eq d i "" ps
    rwa [String.empty_append] at h
  | inline =>
    have h := inlineText_eq d "" ps
    rwa [String.empty_append] at h

namespace Select

@[simp] theorem tail_values (s : Select) : Piece.values s.tail = [] := by
  unfold tail
  cases s.groupBy <;> cases s.orderBy <;> rfl

theorem wherePieces_append (as bs : List Expr) :
    wherePieces (as ++ bs) = wherePieces as ++ wherePieces bs :=
  List.flatMap_append

variable (s : Select) (e : Expr)

/-- The statement with one more condition, in parentheses behind its filters. -/
def withFilter : Select := {s with filters := s.filters ++ [.nested e]}

/-- What stands in front of the clauses of a statement. -/
def front : List Piece := s.head :: wherePieces s.filters

/-- The clauses behind the filters of a statement. -/
def clauses : String :=
  (s.groupBy.elim "" fun key => " GROUP BY " ++ key) ++
    if s.orderBy.isEmpty then "" else " ORDER BY " ++ ", ".intercalate s.orderBy

theorem inlineText_tail (d : Dialect) : Piece.inlineText d s.tail = s.clauses := by
  obtain ⟨columns, table, filters, groupBy, orderBy⟩ := s
  cases groupBy <;> cases orderBy <;> simp [tail, clauses, Piece.inlineText]

theorem withFilter_pieces :
    (s.withFilter e).pieces =
      s.front ++ .text " AND " :: .text "(" :: (e.pieces ++ .text ")" :: s.tail) := by
  have hwhere : wherePieces (s.filters ++ [.nested e]) =
      wherePieces s.filters ++ .text " AND " :: .text "(" :: (e.pieces ++ [.text ")"]) := by
    rw [wherePieces_append]
    exact congrArg (wherePieces s.filters ++ ·) (List.append_nil _)
  show s.head :: (wherePieces (s.filters ++ [.nested e]) ++ s.tail) = _
  rw [hwhere, front]
  simp only [List.append_assoc, List.cons_append, List.nil_append]

variable (d : Dialect) (mode : LiteralMode)

theorem render_sql :
    (s.render d mode).sql = Piece.textFrom d mode 0 s.front ++ s.clauses := by
  have hpieces : s.pieces = s.front ++ s.tail := rfl
  rw [render_eq, Piece.render_eq, hpieces, Piece.textFrom_append, Piece.textFrom_of_values _ _ _ s.tail_values,
    inlineText_tail]

theorem render_params : (s.render d mode).params = Piece.params mode s.front := by
  have hpieces : s.pieces = s.front ++ s.tail := rfl
  rw [render_eq, Piece.render_eq, hpieces, Piece.params_append, Piece.params_of_values mode s.tail_values,
    List.append_nil]

/-- The text of a statement is opened in front of its clauses for one more condition. -/
theorem withFilter_sql :
    ((s.withFilter e).render d mode).sql =
      Piece.textFrom d mode 0 s.front ++ " AND (" ++
        Piece.textFrom d mode (s.render d mode).params.length e.pieces ++ ")" ++ s.clauses := by
  have hopening : " AND (" = " AND " ++ "(" := rfl
  rw [render_params, render_eq, Piece.render_eq, withFilter_pieces, Piece.textFrom_append, Nat.zero_add,
    Piece.textFrom_text, Piece.textFrom_text, Piece.textFrom_append, Piece.textFrom_text,
    Piece.textFrom_of_values _ _ _ s.tail_values, inlineText_tail, hopening]
  simp only [String.append_assoc]

/-- The parameters of one more condition come last. -/
theorem withFilter_params :
    ((s.withFilter e).render d mode).params = (s.render d mode).params ++ (e.render d mode).params := by
  have hlast : Piece.values (.text ")" :: s.tail) = [] := s.tail_values
  have hopening (ps : List Piece) :
      Piece.params mode (.text " AND " :: .text "(" :: ps) = Piece.params mode ps := by
    cases mode <;> rfl
  rw [s.render_params, render_eq, Expr.render_eq, Piece.render_eq, Piece.render_eq, withFilter_pieces,
    Piece.params_append, hopening, Piece.params_append, Piece.params_of_values mode hlast,
    List.append_nil]

end Select

end BucketQuery.Sql
