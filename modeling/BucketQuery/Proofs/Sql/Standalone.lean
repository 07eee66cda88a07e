import BucketQuery.Proofs.Sql.Enclosed

/-! Conditions on their own.

`Dialect.standalone?` reads the text of a condition that has no statement around it: AND binds tighter
than OR, and the parameters are those of the text. Main statement, `Expr.reads_standalone`: the text of a
layered expression, in either mode, means what the expression means. -/
namespace BucketQuery.Sql

/-- The condition that a text with its parameters is. -/
def Dialect.standalone? (d : Dialect) (params : List Value) (text : String) : Option Predicate := do
  let marks ← d.scan text
  whole? (tokens params 0 (lex marks))

variable {Cell : Type} {w : Cells Cell} {row : Row Cell} {d : Dialect} {e : Expr}

namespace Expr

theorem standalone_of_scan {text : String} {params : List Value} {fill : Nat → Value → List Mark}
    {f : Value → List Token} (hover : e.Over IsColumn) (hl : e.Layered true) (hf : Stands f)
    (hscan : d.scan text = some (Piece.marksWith fill 0 e.pieces))
    (htokens : Sql.tokens params 0 (Piece.lexemesWith fill 0 e.pieces) = Piece.tokens f e.pieces) :
    (d.standalone? params text).map (Predicate.truth w row) = some (e.truth w row) := by
  obtain ⟨p, hp, ht⟩ := (e.reads hf hover).2 hl _ [] (Nat.le_refl _) (by simp) (by simp)
  rw [List.append_nil] at hp
  have hread : d.standalone? params text = some p := by
    rw [Dialect.standalone?, hscan]
    show whole? (Sql.tokens params 0 (lex (Piece.marksWith fill 0 e.pieces))) = some p
    rw [Piece.lex_marksWith fill 0 e.pieces_jointed, htokens]
    exact whole_of_disjunction hp
  rw [hread, Option.map_some, ht]

/-- **A condition reads back on its own.** The text of a layered expression over columns, in either mode
and read with its parameters, means what the expression means. -/
theorem reads_standalone (hd : d ∈ Dialect.all) (mode : LiteralMode) (hover : e.Over IsColumn)
    (hl : e.Layered true) :
    (d.standalone? (e.render d mode).params (e.render d mode).sql).map (Predicate.truth w row) =
      some (e.truth w row) := by
  have hwithin := pieces_within (over_mono (fun _ h => h.identifier) hover)
  rw [e.render_eq]
  cases mode with
  | bound =>
    apply standalone_of_scan hover hl boundTokens_stands
    · rw [← Piece.boundMarks_marksWith]
      exact Piece.scan_boundText hd 0 hwithin
    · exact Piece.tokens_bound hd hwithin 0 rfl
  | inline =>
    apply standalone_of_scan hover hl (inlineTokens_stands d)
    · rw [← Piece.inlineMarks_marksWith]
      exact Piece.scan_inlineText hd e.pieces_jointed hwithin
    · exact Piece.tokens_inline hwithin 0 0

end Expr

end BucketQuery.Sql
