import BucketQuery.Proofs.Sql.Writer

/-! One statement, two renderings.

The pieces that a renderer writes fall into the texts around the values and the values themselves, and
neither knows a dialect or a mode. `SameStatement` says that both renderings put the same texts
down with something between them: the placeholders of the places, counted from the front, or the
literals of the values. `Piece.render_sameStatement` is the induction over the pieces; the place of a
placeholder is the number of values before it, so it generalizes over the place that counting
starts from. -/
namespace BucketQuery.Sql

/-- Texts with a filling after each of them but the last. -/
def interleave : (texts fillings : List String) → String
  | [], _ => ""
  | s :: _, [] => s
  | s :: texts, f :: fillings => s ++ f ++ interleave texts fillings

namespace Piece

/-- The texts around the values of some pieces, where `before` stands in front of the first. -/
def textsFrom (before : String) : List Piece → List String
  | [] => [before]
  | .text s :: rest => textsFrom (before ++ s) rest
  | .value _ :: rest => before :: textsFrom "" rest

def texts : List Piece → List String := textsFrom ""

theorem length_textsFrom (before : String) (ps : List Piece) :
    (textsFrom before ps).length = (values ps).length + 1 := by
  induction ps generalizing before with
  | nil => rfl
  | cons p rest ih =>
    cases p with
    | text s => exact ih _
    | value v => simp only [textsFrom, values, List.length_cons, ih]

variable (d : Dialect)

theorem boundText_eq (i : Nat) (before : String) (ps : List Piece) :
    before ++ boundText d i ps =
      interleave (textsFrom before ps) ((List.range' i (values ps).length).map d.placeholder) := by
  induction ps generalizing i before with
  | nil => simp only [boundText, textsFrom, values, List.length_nil, List.range'_zero, List.map_nil,
      interleave, String.append_empty]
  | cons p rest ih =>
    cases p with
    | text s => rw [boundText, textsFrom, values, ← String.append_assoc, ih]
    | value v =>
      have h := ih (i + 1) ""
      rw [String.empty_append] at h
      rw [boundText, textsFrom, values, List.length_cons, List.range'_succ, List.map_cons, interleave,
        h, String.append_assoc]

theorem inlineText_eq (before : String) (ps : List Piece) :
    before ++ inlineText d ps = interleave (textsFrom before ps) ((values ps).map d.literal) := by
  induction ps generalizing before with
  | nil => simp only [inlineText, textsFrom, values, List.map_nil, interleave, String.append_empty]
  | cons p rest ih =>
    cases p with
    | text s => rw [inlineText, textsFrom, values, ← String.append_assoc, ih]
    | value v =>
      have h := ih ""
      rw [String.empty_append] at h
      rw [inlineText, textsFrom, values, List.map_cons, interleave, h, String.append_assoc]

end Piece

/-- What is rendered is, in every dialect, the same texts with placeholders or with literals
between them; the placeholders take the values as parameters, in order. -/
structure SameStatement (render : Dialect → LiteralMode → Rendered) (texts : List String)
    (values : List Value) : Prop where
  length : texts.length = values.length + 1
  bound : ∀ d, render d .bound =
    ⟨interleave texts ((List.range values.length).map d.placeholder), values⟩
  inline : ∀ d, render d .inline = ⟨interleave texts (values.map d.literal), []⟩

theorem Piece.render_sameStatement (ps : List Piece) :
    SameStatement (fun d mode => Piece.render d mode ps) (texts ps) (values ps) where
  length := length_textsFrom "" ps
  bound d := by
    have h := boundText_eq d 0 "" ps
    rw [String.empty_append, ← List.range_eq_range'] at h
    rw [render, h, texts]
  inline d := by
    have h := inlineText_eq d "" ps
    rw [String.empty_append] at h
    rw [render, h, texts]

theorem Expr.render_sameStatement (e : Expr) :
    SameStatement e.render (Piece.texts e.pieces) (Piece.values e.pieces) := by
  have hpieces : e.render = fun d mode => Piece.render d mode e.pieces :=
    funext fun d => funext fun mode => e.render_eq d mode
  rw [hpieces]
  exact Piece.render_sameStatement e.pieces

theorem Select.render_sameStatement (s : Select) :
    SameStatement s.render (Piece.texts s.pieces) (Piece.values s.pieces) := by
  have hpieces : s.render = fun d mode => Piece.render d mode s.pieces :=
    funext fun d => funext fun mode => s.render_eq d mode
  rw [hpieces]
  exact Piece.render_sameStatement s.pieces

/-! ### The dialects and their placeholders -/

/-- What holds of each dialect holds of all. -/
theorem forall_dialects {P : Dialect → Prop} (h₁ : P .duckdb) (h₂ : P .mysql) (h₃ : P .postgres)
    {d : Dialect} (hd : d ∈ Dialect.all) : P d := by
  simp only [Dialect.all, List.mem_cons, List.not_mem_nil, or_false] at hd
  rcases hd with rfl | rfl | rfl
  · exact h₁
  · exact h₂
  · exact h₃

theorem postgres_placeholders (n : Nat) :
    (List.range n).map Dialect.postgres.placeholder =
      (List.range' 1 n).map fun k => "$" ++ toString k := by
  rw [List.range'_eq_map_range, List.map_map]
  apply List.map_congr_left
  intro i _
  show "$" ++ toString (i + 1) = "$" ++ toString (1 + i)
  rw [Nat.add_comm]

theorem mark_placeholders {d : Dialect} (h : d.placeholder = fun _ => "?") (n : Nat) :
    (List.range n).map d.placeholder = List.replicate n "?" := by
  rw [h, List.map_const', List.length_range]

end BucketQuery.Sql
