import BucketQuery.Proofs.Sql.Writer
import BucketQuery.Sql.Identifier
import Mathlib.Data.List.Chain

/-! The pieces of an expression, seen from outside.

Two facts hold of the pieces of every expression. Where two of them meet, one side shows a blank, a
comma or a parenthesis there, so no word, number or sign runs on from one piece into the next
(`Jointed`). And as long as columns are identifiers and no trusted text is around (`Expr.Over`), the
fixed text is made of few characters, quotes not among them (`Expr.plain_pieces`). -/
namespace BucketQuery.Sql

open BucketQuery.Filter (Connective Comparison)

namespace Expr

/-- Induction on an expression; a chain may use what holds of each of its items. -/
theorem induct {motive : Expr → Prop} (raw : ∀ text, motive (.raw text))
    (compare : ∀ column op value, motive (.compare column op value))
    (like : ∀ column pattern negated, motive (.like column pattern negated))
    (between : ∀ column low high negated, motive (.between column low high negated))
    (isNull : ∀ column negated, motive (.isNull column negated))
    (inList : ∀ column values, motive (.inList column values))
    (not : ∀ e, motive e → motive (.not e)) (nested : ∀ e, motive e → motive (.nested e))
    (chain : ∀ items, (∀ item ∈ items, motive item.2) → motive (.chain items)) (e : Expr) :
    motive e := by
  apply Expr.rec (motive_1 := motive) (motive_2 := fun items => ∀ item ∈ items, motive item.2)
    (motive_3 := fun item => motive item.2)
  case raw => exact raw
  case compare => exact compare
  case like => exact like
  case between => exact between
  case isNull => exact isNull
  case inList => exact inList
  case not => exact not
  case nested => exact nested
  case chain => exact chain
  case nil => exact fun item h => absurd h List.not_mem_nil
  case cons =>
    intro head tail hhead htail item h
    rcases List.mem_cons.mp h with rfl | h
    · exact hhead
    · exact htail item h
  case mk => exact fun _ _ h => h

theorem restPieces_eq (items : List (Connective × Expr)) :
    restPieces items =
      items.flatMap fun item => .text (" " ++ item.1.text ++ " ") :: item.2.pieces := by
  induction items with
  | nil => rfl
  | cons item rest ih => rw [restPieces, ih, List.flatMap_cons, List.cons_append]

mutual

/-- Every column is one that `P` holds of, and there is no trusted text. -/
def Over (P : String → Prop) : Expr → Prop
  | .raw _ => False
  | .compare column _ _ | .like column _ _ | .between column _ _ _ | .isNull column _
  | .inList column _ => P column
  | .not e | .nested e => e.Over P
  | .chain items => OverItems P items

def OverItems (P : String → Prop) : List (Connective × Expr) → Prop
  | [] => True
  | (_, e) :: rest => e.Over P ∧ OverItems P rest

end

@[simp] theorem over_chain {P : String → Prop} {items : List (Connective × Expr)} :
    (chain items).Over P ↔ ∀ item ∈ items, item.2.Over P := by
  show OverItems P items ↔ _
  induction items with
  | nil => simp [OverItems]
  | cons item rest ih => rw [OverItems, ih, List.forall_mem_cons]

theorem over_mono {P Q : String → Prop} (himp : ∀ column, P column → Q column) {e : Expr}
    (h : e.Over P) : e.Over Q := by
  induction e using Expr.induct with
  | raw text => exact absurd h id
  | compare | like | between | isNull | inList => exact himp _ h
  | not e ih => exact ih h
  | nested e ih => exact ih h
  | chain items ih =>
    rw [over_chain] at h ⊢
    exact fun item hitem => ih item hitem (h item hitem)

end Expr

/-! ### Joints -/

/-- Blank space, a comma or a parenthesis. -/
def isBreak (c : Char) : Bool := c == ' ' || c == ',' || c == '(' || c == ')'

namespace Piece

def startsApart : Piece → Bool
  | .text s => s.toList.head?.any isBreak
  | .value _ => false

def endsApart : Piece → Bool
  | .text s => s.toList.getLast?.any isBreak
  | .value _ => false

/-- Where two pieces meet, one of them shows a break. -/
def Jointed (ps : List Piece) : Prop :=
  ps.IsChain fun a b => a.endsApart = true ∨ b.startsApart = true

theorem Jointed.cons {p : Piece} {ps : List Piece} (hp : p.endsApart = true) (h : Jointed ps) :
    Jointed (p :: ps) :=
  List.isChain_cons.mpr ⟨fun _ _ => .inl hp, h⟩

theorem Jointed.append {p : Piece} {ps qs : List Piece} (h : Jointed ps) (hp : p.startsApart = true)
    (hq : Jointed (p :: qs)) : Jointed (ps ++ p :: qs) := by
  refine List.IsChain.append h hq fun _ _ y hy => .inr ?_
  rw [List.head?_cons, Option.mem_some_iff] at hy
  rw [← hy]
  exact hp

theorem jointed_nil : Jointed [] := List.isChain_nil

theorem jointed_singleton (p : Piece) : Jointed [p] := List.isChain_singleton p

theorem endsApart_append (s : String) {t : String} (h : (Piece.text t).endsApart = true) :
    (Piece.text (s ++ t)).endsApart = true := by
  rw [endsApart] at h ⊢
  rw [String.toList_append, List.getLast?_append]
  cases ht : t.toList.getLast? with
  | none =>
    rw [ht] at h
    cases h
  | some c =>
    rw [ht] at h
    exact h

theorem startsApart_append {s : String} (t : String) (h : (Piece.text s).startsApart = true) :
    (Piece.text (s ++ t)).startsApart = true := by
  rw [startsApart] at h ⊢
  rw [String.toList_append, List.head?_append]
  cases hs : s.toList.head? with
  | none =>
    rw [hs] at h
    cases h
  | some c =>
    rw [hs] at h
    exact h

end Piece

open Piece (Jointed)

theorem listPieces_jointed (values : List Value) : Jointed (listPieces values) := by
  induction values with
  | nil => exact Piece.jointed_nil
  | cons v rest ih =>
    cases rest with
    | nil => exact Piece.jointed_singleton _
    | cons w rest => exact .append (Piece.jointed_singleton _) (by decide) (.cons (by decide) ih)

/-- What stands between the items of a chain shows a break on both sides. -/
theorem connective_apart (c : Connective) :
    (Piece.text (" " ++ c.text ++ " ")).startsApart = true ∧
      (Piece.text (" " ++ c.text ++ " ")).endsApart = true := by
  cases c <;> decide

/-- Closing a parenthesis keeps pieces jointed. -/
theorem jointed_closed {ps : List Piece} (h : Jointed ps) : Jointed (ps ++ [.text ")"]) :=
  h.append (by decide) (Piece.jointed_singleton _)

theorem Expr.pieces_jointed (e : Expr) : Jointed e.pieces := by
  induction e using Expr.induct with
  | raw text => exact Piece.jointed_singleton _
  | compare column op value =>
    exact .cons (Piece.endsApart_append _ (by decide)) (Piece.jointed_singleton _)
  | like column pattern negated =>
    refine .cons ?_ (Piece.jointed_singleton _)
    cases negated <;> exact Piece.endsApart_append _ (by decide)
  | between column low high negated =>
    refine .cons ?_ (.append (Piece.jointed_singleton _) (by decide)
      (.cons (by decide) (Piece.jointed_singleton _)))
    cases negated <;> exact Piece.endsApart_append _ (by decide)
  | isNull column negated => exact Piece.jointed_singleton _
  | inList column values =>
    cases values with
    | nil => exact Piece.jointed_singleton _
    | cons v rest =>
      refine .cons ?_ (jointed_closed (listPieces_jointed _))
      exact Piece.endsApart_append _ (by decide)
  | not e ih => exact .cons (by decide) (jointed_closed ih)
  | nested e ih => exact .cons (by decide) (jointed_closed ih)
  | chain items ih =>
    cases items with
    | nil => exact Piece.jointed_nil
    | cons item rest =>
      rw [Expr.pieces, Expr.restPieces_eq]
      -- What follows an item starts with its connective, so each item may be added in front.
      induction rest generalizing item with
      | nil => simpa using ih item List.mem_cons_self
      | cons next rest ihrest =>
        have hnext := ihrest next fun x hx => ih x (List.mem_cons_of_mem _ hx)
        rw [List.flatMap_cons, List.cons_append]
        exact (ih item List.mem_cons_self).append (connective_apart _).1
          (hnext.cons (connective_apart _).2)

/-- What starts apart may follow anything. -/
theorem Piece.Jointed.append_apart {ps qs : List Piece} (h : Jointed ps)
    (hq : ∀ q ∈ qs, q.startsApart = true) : Jointed (ps ++ qs) := by
  induction qs generalizing ps with
  | nil => rwa [List.append_nil]
  | cons q qs ih =>
    have hhead : Jointed (ps ++ [q]) :=
      h.append (hq q List.mem_cons_self) (Piece.jointed_singleton q)
    rw [List.append_cons]
    exact ih hhead fun r hr => hq r (List.mem_cons_of_mem _ hr)

namespace Select

theorem tail_apart (s : Select) : ∀ p ∈ s.tail, p.startsApart = true := by
  intro p hp
  rcases List.mem_append.mp hp with hp | hp
  · cases hg : s.groupBy with
    | none => simp [hg] at hp
    | some key =>
      rw [hg, List.mem_singleton] at hp
      rw [hp]
      exact Piece.startsApart_append _ (by decide)
  · split at hp
    · cases hp
    · rw [List.mem_singleton] at hp
      rw [hp]
      exact Piece.startsApart_append _ (by decide)

/-- In front of its filters a statement has its columns and its table, behind them its order. -/
theorem head_congr {s t : Select} (hcolumns : s.columns = t.columns) (htable : s.table = t.table) :
    s.head = t.head := by
  rw [head, head, projection, projection, hcolumns, htable]

theorem tail_congr {s t : Select} (hgroupBy : s.groupBy = t.groupBy) (horderBy : s.orderBy = t.orderBy) :
    s.tail = t.tail := by
  rw [tail, tail, hgroupBy, horderBy]

theorem wherePieces_cons (e : Expr) (filters : List Expr) :
    wherePieces (e :: filters) = .text " AND " :: (e.pieces ++ wherePieces filters) := rfl

theorem pieces_jointed (s : Select) : Jointed s.pieces := by
  have h (ps : List Piece) (hps : Jointed ps) :
      Jointed (ps ++ (wherePieces s.filters ++ s.tail)) := by
    induction s.filters generalizing ps with
    | nil => exact hps.append_apart s.tail_apart
    | cons e filters ih =>
      have he : Jointed (ps ++ .text " AND " :: e.pieces) :=
        hps.append (by decide) (.cons (by decide) e.pieces_jointed)
      have := ih _ he
      rwa [wherePieces_cons, List.cons_append, List.append_assoc, ← List.cons_append,
        ← List.append_assoc]
  exact h [s.head] (Piece.jointed_singleton _)

end Select

/-! ### Characters -/

/-- A character that a class leaves out is in no text of the class. -/
theorem not_mem_of_all {P : Char → Bool} {c : Char} {cs : List Char} (h : cs.all P = true)
    (hc : P c = false) : c ∉ cs := by
  intro hm
  have hin := List.all_eq_true.mp h c hm
  rw [hc] at hin
  cases hin

theorem all_of_all {P Q : Char → Bool} (hPQ : ∀ c, P c = true → Q c = true) {cs : List Char}
    (h : cs.all P = true) : cs.all Q = true := by
  rw [List.all_eq_true] at h ⊢
  exact fun c hc => hPQ c (h c hc)

/-- The characters that fixed text is made of. -/
def isStatementChar (c : Char) : Bool := isIdentifierChar c || " (),*=<>!".toList.contains c

/-- All fixed text is within some characters. -/
def Piece.Within (P : Char → Bool) (ps : List Piece) : Prop :=
  ∀ s, .text s ∈ ps → s.toList.all P = true

namespace Piece
variable {P : Char → Bool}

@[simp] theorem within_nil : Within P [] := fun _ h => absurd h List.not_mem_nil

@[simp] theorem within_text {s : String} {ps : List Piece} :
    Within P (.text s :: ps) ↔ s.toList.all P = true ∧ Within P ps := by
  constructor
  · exact fun h => ⟨h s List.mem_cons_self, fun t ht => h t (List.mem_cons_of_mem _ ht)⟩
  · rintro ⟨hs, h⟩ t ht
    rcases List.mem_cons.mp ht with ht | ht
    · cases ht
      exact hs
    · exact h t ht

@[simp] theorem within_value {v : Value} {ps : List Piece} : Within P (.value v :: ps) ↔ Within P ps := by
  constructor
  · exact fun h t ht => h t (List.mem_cons_of_mem _ ht)
  · intro h t ht
    rcases List.mem_cons.mp ht with ht | ht
    · cases ht
    · exact h t ht

@[simp] theorem within_append {ps qs : List Piece} : Within P (ps ++ qs) ↔ Within P ps ∧ Within P qs := by
  induction ps with
  | nil => simp [within_nil]
  | cons p ps ih =>
    cases p with
    | text s => rw [List.cons_append, within_text, within_text, ih, and_assoc]
    | value v => rw [List.cons_append, within_value, within_value, ih]

end Piece

open Piece (Within within_text within_value within_append within_nil)

theorem statementChars_of_identifierChars {cs : List Char} (h : cs.all isIdentifierChar = true) :
    cs.all isStatementChar = true :=
  all_of_all (fun c hc => by rw [isStatementChar, hc, Bool.true_or]) h

/-- Identifiers are made of statement characters. -/
theorem statementChars_of_identifier {name : String} (h : isIdentifier name = true) :
    name.toList.all isStatementChar = true := by
  rw [isIdentifier, Bool.and_eq_true] at h
  exact statementChars_of_identifierChars h.2

theorem statementChars_intercalate {names : List String}
    (h : ∀ name ∈ names, name.toList.all isStatementChar = true) :
    (", ".intercalate names).toList.all isStatementChar = true := by
  induction names with
  | nil => decide
  | cons name rest ih =>
    rw [List.forall_mem_cons] at h
    cases rest with
    | nil => rw [String.intercalate_singleton]; exact h.1
    | cons next rest =>
      rw [String.intercalate_cons_cons, String.toList_append, String.toList_append, List.all_append,
        List.all_append, h.1, ih h.2]
      decide

theorem listPieces_within (values : List Value) : Within isStatementChar (listPieces values) := by
  induction values with
  | nil => exact within_nil
  | cons v rest ih =>
    cases rest with
    | nil => exact within_value.mpr within_nil
    | cons w rest => exact within_value.mpr (within_text.mpr ⟨by decide, ih⟩)

theorem within_closed {ps : List Piece} (h : Within isStatementChar ps) :
    Within isStatementChar (ps ++ [.text ")"]) :=
  within_append.mpr ⟨h, within_text.mpr ⟨by decide, within_nil⟩⟩

theorem statementChars_comparison (op : Comparison) :
    op.text.toList.all isStatementChar = true := by
  cases op <;> decide

theorem statementChars_connective (c : Connective) :
    (" " ++ c.text ++ " ").toList.all isStatementChar = true := by
  cases c <;> decide

/-- The fixed text of an expression, its columns identifiers, is within the statement characters. -/
theorem Expr.pieces_within {e : Expr} (h : e.Over (isIdentifier · = true)) :
    Within isStatementChar e.pieces := by
  induction e using Expr.induct with
  | raw text => exact absurd h id
  | compare column op value =>
    have hc := statementChars_of_identifier h
    refine within_text.mpr ⟨?_, within_value.mpr within_nil⟩
    simp only [String.toList_append, List.all_append, hc, statementChars_comparison]
    decide
  | like column pattern negated =>
    have hc := statementChars_of_identifier h
    refine within_text.mpr ⟨?_, within_value.mpr within_nil⟩
    rw [String.toList_append, List.all_append, hc]
    cases negated <;> decide
  | between column low high negated =>
    have hc := statementChars_of_identifier h
    refine within_text.mpr ⟨?_, within_value.mpr
      (within_text.mpr ⟨by decide, within_value.mpr within_nil⟩)⟩
    rw [String.toList_append, List.all_append, hc]
    cases negated <;> decide
  | isNull column negated =>
    have hc := statementChars_of_identifier h
    refine within_text.mpr ⟨?_, within_nil⟩
    rw [String.toList_append, List.all_append, hc]
    cases negated <;> decide
  | inList column values =>
    have hc := statementChars_of_identifier h
    cases values with
    | nil => exact within_text.mpr ⟨by decide, within_nil⟩
    | cons v rest =>
      refine within_text.mpr ⟨?_, within_closed (listPieces_within _)⟩
      rw [String.toList_append, List.all_append, hc]
      decide
  | not e ih => exact within_text.mpr ⟨by decide, within_closed (ih h)⟩
  | nested e ih => exact within_text.mpr ⟨by decide, within_closed (ih h)⟩
  | chain items ih =>
    rw [over_chain] at h
    cases items with
    | nil => exact within_nil
    | cons item rest =>
      rw [Expr.pieces, Expr.restPieces_eq]
      refine within_append.mpr ⟨ih item List.mem_cons_self (h item List.mem_cons_self), ?_⟩
      intro s hs
      obtain ⟨next, hnext, hs⟩ := List.mem_flatMap.mp hs
      have hmem := List.mem_cons_of_mem item hnext
      exact within_text.mpr ⟨statementChars_connective next.1, ih next hmem (h next hmem)⟩ s hs

/-- Every name of a statement is an identifier, or the star of all columns. -/
structure Select.Named (s : Select) : Prop where
  columns : ∀ name ∈ s.columns, name = "*" ∨ isIdentifier name = true
  table : isIdentifier s.table = true
  filters : ∀ e ∈ s.filters, e.Over (isIdentifier · = true)
  groupBy : ∀ key ∈ s.groupBy, isIdentifier key = true
  orderBy : ∀ name ∈ s.orderBy, isIdentifier name = true

namespace Select

theorem projection_chars {s : Select} (h : s.Named) :
    s.projection.toList.all isStatementChar = true := by
  unfold projection
  split
  · decide
  · apply statementChars_intercalate
    intro name hname
    rcases h.columns name hname with rfl | hi
    · decide
    · exact statementChars_of_identifier hi

theorem tail_within {s : Select} (h : s.Named) : Within isStatementChar s.tail := by
  refine within_append.mpr ⟨?_, ?_⟩
  · cases hg : s.groupBy with
    | none => exact within_nil
    | some key =>
      refine within_text.mpr ⟨?_, within_nil⟩
      rw [String.toList_append, List.all_append, statementChars_of_identifier (h.groupBy key hg)]
      decide
  · split
    · exact within_nil
    · refine within_text.mpr ⟨?_, within_nil⟩
      rw [String.toList_append, List.all_append, statementChars_intercalate fun name hname =>
        statementChars_of_identifier (h.orderBy name hname)]
      decide

/-- The fixed text of a statement, its names identifiers, is within the statement characters. -/
theorem pieces_within {s : Select} (h : s.Named) : Within isStatementChar s.pieces := by
  refine within_text.mpr ⟨?_, within_append.mpr ⟨?_, tail_within h⟩⟩
  · simp only [String.toList_append, List.all_append, projection_chars h,
      statementChars_of_identifier h.table]
    decide
  · intro t ht
    obtain ⟨e, he, ht⟩ := List.mem_flatMap.mp ht
    exact within_text.mpr ⟨by decide, Expr.pieces_within (h.filters e he)⟩ t ht

end Select

end BucketQuery.Sql
