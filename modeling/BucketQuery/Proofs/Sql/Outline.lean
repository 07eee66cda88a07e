import BucketQuery.Proofs.Sql.Pieces

/-! Pieces with their values forgotten.

An outline keeps the fixed text of pieces and the places of their values. Bound text is made from an
outline alone (`boundText_outline`), and an outline of a whole from those of its parts, so parts of
equal outline may stand for each other. -/
namespace BucketQuery.Sql

namespace Piece

def outline : List Piece → List (Option String)
  | [] => []
  | .text s :: rest => some s :: outline rest
  | .value _ :: rest => none :: outline rest

/-- Bound text as it is made from an outline. -/
def outlineText (d : Dialect) : Nat → List (Option String) → String
  | _, [] => ""
  | i, some s :: rest => s ++ outlineText d i rest
  | i, none :: rest => d.placeholder i ++ outlineText d (i + 1) rest

theorem boundText_outline (d : Dialect) (i : Nat) (ps : List Piece) :
    boundText d i ps = outlineText d i (outline ps) := by
  induction ps generalizing i with
  | nil => rfl
  | cons p rest ih => cases p <;> simp only [boundText, outline, outlineText, ih]

@[simp] theorem outline_append (ps qs : List Piece) : outline (ps ++ qs) = outline ps ++ outline qs := by
  induction ps with
  | nil => rfl
  | cons p rest ih => cases p <;> simp only [List.cons_append, outline, ih]

end Piece

/-! ### Expressions -/

def Expr.outline (e : Expr) : List (Option String) := Piece.outline e.pieces

open Piece (outline)

theorem outline_listPieces {as bs : List Value} (h : as.length = bs.length) :
    outline (listPieces as) = outline (listPieces bs) := by
  induction as generalizing bs with
  | nil => rw [List.length_eq_zero_iff.mp h.symm]
  | cons a as ih =>
    obtain ⟨b, bs, rfl⟩ := List.exists_cons_of_length_eq_add_one h.symm
    have hlen : as.length = bs.length := Nat.succ.inj h
    cases as with
    | nil =>
      rw [List.length_eq_zero_iff.mp hlen.symm]
      rfl
    | cons a' as =>
      obtain ⟨b', bs, rfl⟩ := List.exists_cons_of_length_eq_add_one hlen.symm
      simp only [listPieces, outline, ih hlen]

theorem outline_inList (column : String) {as bs : List Value} (h : as.length = bs.length) :
    (Expr.inList column as).outline = (Expr.inList column bs).outline := by
  have hlist := outline_listPieces h
  cases as with
  | nil => rw [List.length_eq_zero_iff.mp h.symm]
  | cons a as =>
    obtain ⟨b, bs, rfl⟩ := List.exists_cons_of_length_eq_add_one h.symm
    simp only [Expr.outline, Expr.pieces, outline, Piece.outline_append, hlist]

theorem outline_not {e f : Expr} (h : e.outline = f.outline) :
    (Expr.not e).outline = (Expr.not f).outline := by
  simp only [Expr.outline, Expr.pieces, outline, Piece.outline_append] at h ⊢
  rw [h]

theorem outline_nested {e f : Expr} (h : e.outline = f.outline) :
    (Expr.nested e).outline = (Expr.nested f).outline := by
  simp only [Expr.outline, Expr.pieces, outline, Piece.outline_append] at h ⊢
  rw [h]

/-- An item of a chain as its outline shows it. -/
def itemOutline (item : Filter.Connective × Expr) : Filter.Connective × List (Option String) :=
  (item.1, item.2.outline)

theorem outline_chain (items : List (Filter.Connective × Expr)) :
    (Expr.chain items).outline = match items.map itemOutline with
      | [] => []
      | first :: rest => first.2 ++ rest.flatMap fun o => some (" " ++ o.1.text ++ " ") :: o.2 := by
  cases items with
  | nil => rfl
  | cons item rest =>
    simp only [Expr.outline, Expr.pieces, List.map_cons, Piece.outline_append]
    congr 1
    induction rest with
    | nil => rfl
    | cons next rest ih =>
      rw [Expr.restPieces, outline, Piece.outline_append, ih]
      rfl

theorem outline_chain_congr {as bs : List (Filter.Connective × Expr)}
    (h : as.map itemOutline = bs.map itemOutline) :
    (Expr.chain as).outline = (Expr.chain bs).outline := by
  rw [outline_chain, outline_chain, h]

theorem outline_chain_two (c c' : Filter.Connective) {a a' b b' : Expr}
    (ha : a.outline = a'.outline) (hb : b.outline = b'.outline) :
    (Expr.chain [(c, a), (c', b)]).outline = (Expr.chain [(c, a'), (c', b')]).outline := by
  apply outline_chain_congr
  simp only [List.map_cons, List.map_nil, itemOutline, ha, hb]

/-! ### Statements -/

theorem outline_wherePieces (filters : List Expr) :
    outline (Select.wherePieces filters) =
      (filters.map Expr.outline).flatMap fun o => some " AND " :: o := by
  induction filters with
  | nil => rfl
  | cons e filters ih =>
    rw [Select.wherePieces_cons, outline, Piece.outline_append, ih]
    rfl

theorem outline_select {s t : Select} (hhead : s.head = t.head) (htail : s.tail = t.tail)
    (hfilters : s.filters.map Expr.outline = t.filters.map Expr.outline) :
    outline s.pieces = outline t.pieces := by
  have hrest : outline (Select.wherePieces s.filters ++ s.tail) =
      outline (Select.wherePieces t.filters ++ t.tail) := by
    rw [Piece.outline_append, Piece.outline_append, outline_wherePieces, outline_wherePieces, hfilters,
      htail]
  rw [Select.pieces, Select.pieces, hhead, Select.head, outline, outline, hrest]

end BucketQuery.Sql
