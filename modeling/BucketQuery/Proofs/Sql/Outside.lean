import BucketQuery.Proofs.Sql.Shape

/-! What stands outside of all parentheses.

Text that closes the parentheses it opens is read on its own there, whatever is in front of it
(`outside_append`), and in parentheses it adds nothing (`bareOrs_enclosed`). A shaped expression joins with
OR only what is in parentheses. Main statement, `Select.lexemes_solid`: a statement of such filters closes
what it opens, nothing in it is empty, and an OR outside of all its parentheses is the name of a column or
a table. -/
namespace BucketQuery.Sql

namespace Lexeme

/-- What is outside of all parentheses, where `opened` are open in the beginning. -/
def outside : (opened : Nat) → List Lexeme → List Lexeme
  | _, [] => []
  | n, l :: rest =>
    match l.bracket with
    | some .opening => outside (n + 1) rest
    | some .closing => outside (n - 1) rest
    | none => if n = 0 then l :: outside n rest else outside n rest

/-- The ORs outside of all parentheses. -/
def bareOrs (ls : List Lexeme) : List Lexeme := (outside 0 ls).filter (isWord "OR")

section Outside
variable {as bs ls : List Lexeme}

theorem outside_append {n m : Nat} (h : depth? n (as.filterMap bracket) = some m) :
    outside n (as ++ bs) = outside n as ++ outside m bs := by
  induction as generalizing n with
  | nil =>
    cases h
    rfl
  | cons l as ih =>
    rw [List.cons_append, outside, outside]
    rw [List.filterMap_cons] at h
    cases hl : l.bracket with
    | none =>
      rw [hl] at h
      by_cases hn : n = 0
      · simp [hn, ih (n := 0) (hn ▸ h)]
      · simp [hn, ih h]
    | some b =>
      rw [hl] at h
      cases b with
      | opening => exact ih h
      | closing =>
        cases n with
        | zero => cases h
        | succ n => exact ih h

/-- What lies in parentheses adds nothing outside of them. -/
theorem outside_succ {n m : Nat} (h : depth? n (ls.filterMap bracket) = some m) :
    outside (n + 1) ls = [] := by
  induction ls generalizing n with
  | nil => rfl
  | cons l ls ih =>
    rw [outside]
    rw [List.filterMap_cons] at h
    cases hl : l.bracket with
    | none =>
      rw [hl] at h
      simp [ih h]
    | some b =>
      rw [hl] at h
      cases b with
      | opening => exact ih h
      | closing =>
        cases n with
        | zero => cases h
        | succ n => exact ih h

theorem outside_flat (h : ∀ l ∈ ls, l.bracket = none) : outside 0 ls = ls := by
  induction ls with
  | nil => rfl
  | cons l ls ih =>
    rw [List.forall_mem_cons] at h
    rw [outside, h.1]
    simp [ih h.2]

theorem bareOrs_flat (h : ∀ l ∈ ls, l.bracket = none) : bareOrs ls = ls.filter (isWord "OR") := by
  rw [bareOrs, outside_flat h]

theorem bareOrs_quiet (h : ∀ l ∈ ls, l.quiet = true) : bareOrs ls = [] := by
  rw [bareOrs_flat fun l hl => bracket_of_quiet (h l hl), List.filter_eq_nil_iff]
  intro l hl
  have := h l hl
  simp only [quiet, Bool.and_eq_true, Bool.not_eq_true'] at this
  simp [this.2]

theorem bareOrs_append (h : Solid as) : bareOrs (as ++ bs) = bareOrs as ++ bareOrs bs := by
  rw [bareOrs, outside_append (h.balanced 0), List.filter_append]
  rfl

theorem bareOrs_enclosed (h : Solid ls) : bareOrs (.symbol '(' :: (ls ++ [.symbol ')'])) = [] := by
  have hinside : outside 1 (ls ++ [.symbol ')']) = [] := by
    rw [outside_append (h.balanced 1), outside_succ (h.balanced 0)]
    rfl
  show (outside 1 (ls ++ [.symbol ')'])).filter (isWord "OR") = []
  rw [hinside]
  rfl

end Outside

end Lexeme

open Lexeme (MadeOf Solid bareOrs bareOrs_append bareOrs_enclosed bareOrs_flat bareOrs_quiet)

/-! ### Expressions -/

theorem quiet_column {column : String} (h : IsColumn column) :
    (Lexeme.word column.toList).quiet = true := by
  have hne : column.toList.map Char.toUpper ≠ "OR".toList := by
    intro heq
    have hnone := h.unreserved
    rw [keyword?, heq] at hnone
    exact absurd hnone (by decide)
  simp only [Lexeme.quiet, Lexeme.bracket, Lexeme.isWord, beq_eq_false_iff_ne.mpr hne]
  rfl

section Texts
variable {fill : Nat → Value → List Mark}

/-- An expression that is in parentheses has no OR outside of them. -/
theorem Expr.bareOrs_nested (hf : Fills fill) {e : Expr} (hover : e.Over (isIdentifier · = true))
    (hs : e.Shaped true) (i : Nat) : bareOrs (Piece.lexemesWith fill i (nested e).pieces) = [] := by
  rw [pieces, lexemesWith_enclosed lexText_opening]
  exact bareOrs_enclosed (lexemes_solid hf hover hs i)

/-- Nor has one that may stand beside others, if it tests columns. -/
theorem Expr.bareOrs_lexemes (hf : Fills fill) {e : Expr} (hover : e.Over IsColumn)
    (hs : e.Shaped false) (i : Nat) : bareOrs (Piece.lexemesWith fill i e.pieces) = [] := by
  have hidentifiers {e : Expr} (hover : e.Over IsColumn) : e.Over (isIdentifier · = true) :=
    over_mono (fun _ h => h.identifier) hover
  have hflat {e : Expr} (hflat : e.isFlat = true) (hover : e.Over IsColumn) :
      bareOrs (Piece.lexemesWith fill i e.pieces) = [] :=
    bareOrs_quiet (flat_madeOf hf (fun _ h => h) hflat
      (over_mono (fun _ h => ⟨h.identifier, quiet_column h⟩) hover) i).2
  have hbehind {front ls : List Lexeme} (hfront : MadeOf (Lexeme.quiet · = true) front)
      (hls : Solid ls) : bareOrs (front ++ .symbol '(' :: (ls ++ [.symbol ')'])) = [] := by
    rw [bareOrs_append (.of_flat (hfront.mono fun _ => Lexeme.bracket_of_quiet)), bareOrs_enclosed hls,
      bareOrs_quiet hfront.2]
    rfl
  cases e with
  | raw text => exact absurd hover id
  | compare | like | between | isNull => exact hflat rfl hover
  | inList column vs =>
    cases vs with
    | nil => exact absurd rfl hs
    | cons v vs =>
      have hin : ∀ l ∈ [Lexeme.word "IN".toList], l.quiet = true := by decide
      rw [pieces, lexemesWith_enclosed (lexText_in (IsColumn.identifier hover))]
      exact hbehind ⟨List.cons_ne_nil _ _, List.forall_mem_cons.mpr ⟨quiet_column hover, hin⟩⟩
        (.of_flat (listPieces_madeOf hf (List.cons_ne_nil _ _) i))
  | not e =>
    rw [pieces, lexemesWith_enclosed lexText_not]
    exact hbehind ⟨List.cons_ne_nil _ _, by decide⟩
      (lexemes_solid hf (hidentifiers (e := e) hover) (shaped_of_isTest hs true) i)
  | nested e => exact bareOrs_nested hf (hidentifiers (e := e) hover) hs i
  | chain items => exact absurd hs.1 Bool.false_ne_true

/-- The expression may stand beside others, and it tests columns or is in parentheses as a whole. -/
def Expr.Apart (e : Expr) : Prop := e.Shaped false ∧ (e.Over IsColumn ∨ ∃ f, e = .nested f)

theorem Expr.bareOrs_apart (hf : Fills fill) {e : Expr} (hover : e.Over (isIdentifier · = true))
    (h : e.Apart) (i : Nat) : bareOrs (Piece.lexemesWith fill i e.pieces) = [] := by
  obtain ⟨hs, hcolumns | ⟨f, rfl⟩⟩ := h
  · exact bareOrs_lexemes hf hcolumns hs i
  · exact bareOrs_nested (e := f) hf hover hs i

end Texts

/-! ### Names -/

/-- The names that are written like an OR. -/
def orNames (names : List String) : List Lexeme :=
  (names.map fun name => .word name.toList).filter (Lexeme.isWord "OR")

@[simp] theorem orNames_append (names more : List String) :
    orNames (names ++ more) = orNames names ++ orNames more := by
  simp [orNames]

/-- Text without parentheses that has no OR but the names given, where they are written like one. -/
structure Lexeme.Lists (ls : List Lexeme) (names : List String) : Prop where
  flat : ∀ l ∈ ls, l.bracket = none
  ors : ls.filter (isWord "OR") = orNames names

section Lists
variable {as bs ls : List Lexeme} {names more : List String}

theorem Lexeme.Lists.append (ha : Lists as names) (hb : Lists bs more) :
    Lists (as ++ bs) (names ++ more) where
  flat := List.forall_mem_append.mpr ⟨ha.flat, hb.flat⟩
  ors := by rw [List.filter_append, ha.ors, hb.ors, orNames_append]

theorem Lexeme.Lists.of_quiet (h : ls.all quiet = true) : Lists ls [] where
  flat l hl := bracket_of_quiet (List.all_eq_true.mp h l hl)
  ors := by
    have hflat (l : Lexeme) (hl : l ∈ ls) := bracket_of_quiet (List.all_eq_true.mp h l hl)
    rw [← bareOrs_flat hflat, bareOrs_quiet (List.all_eq_true.mp h)]
    rfl

/-- A column, a table or the star of all columns. -/
theorem lists_name {name : String} (h : name = "*" ∨ isIdentifier name = true) :
    Lexeme.Lists (lexText name) [name] := by
  rcases h with rfl | h
  · exact ⟨by decide, by decide⟩
  · rw [lexText_identifier h]
    exact ⟨by simp [Lexeme.bracket], rfl⟩

theorem lists_names (h : ∀ name ∈ names, name = "*" ∨ isIdentifier name = true) :
    Lexeme.Lists (lexText (", ".intercalate names)) names := by
  induction names with
  | nil => exact ⟨by decide, by decide⟩
  | cons name names ih =>
    rw [List.forall_mem_cons] at h
    cases names with
    | nil =>
      rw [String.intercalate_singleton]
      exact lists_name h.1
    | cons next names =>
      have hcomma : Lexeme.Lists (lexText ", ") [] := .of_quiet (by decide)
      rw [String.intercalate_cons_cons, String.append_assoc,
        lexText_append (.inr (Piece.startsApart_append _ (by decide))), lexText_append (.inl (by decide))]
      exact (lists_name h.1).append (hcomma.append (ih h.2))

/-- Names behind fixed text that ends apart. -/
theorem lists_behind {t : String} (hapart : (Piece.text t).endsApart = true)
    (hquiet : (lexText t).all Lexeme.quiet = true)
    (h : ∀ name ∈ names, isIdentifier name = true) :
    Lexeme.Lists (lexText (t ++ ", ".intercalate names)) names := by
  rw [lexText_append (.inl hapart)]
  exact (Lexeme.Lists.of_quiet hquiet).append (lists_names fun name hname => .inr (h name hname))

end Lists

/-! ### Statements -/

namespace Select
variable {fill : Nat → Value → List Mark} {s : Select}

theorem head_lists (h : s.Named) :
    Lexeme.Lists (lexText ("SELECT " ++ s.projection ++ " FROM " ++ s.table ++ " WHERE 1=1"))
      (s.columns ++ [s.table]) := by
  have hprojection : Lexeme.Lists (lexText s.projection) s.columns := by
    unfold projection
    split
    · rename_i hempty
      rw [List.isEmpty_iff.mp hempty]
      exact .of_quiet (by decide)
    · exact lists_names h.columns
  have htable : Lexeme.Lists [.word s.table.toList] [s.table] := by
    have := lists_name (.inr h.table)
    rwa [lexText_identifier h.table] at this
  have hselect : Lexeme.Lists [.word "SELECT".toList] [] := .of_quiet (by decide)
  have hfrom : Lexeme.Lists [.word "FROM".toList] [] := .of_quiet (by decide)
  have hwhere : Lexeme.Lists (.word "WHERE".toList :: firstLexemes) [] := .of_quiet (by decide)
  rw [lexText_head h]
  have := hselect.append (hprojection.append (hfrom.append (htable.append hwhere)))
  simpa only [List.nil_append, List.append_nil, List.append_assoc, List.cons_append] using this

theorem tail_lists (h : s.Named) (i : Nat) :
    Lexeme.Lists (Piece.lexemesWith fill i s.tail) (s.groupBy.toList ++ s.orderBy) := by
  rw [tail, lexemesWith_append]
  refine Lexeme.Lists.append ?_ ?_
  · cases hg : s.groupBy with
    | none => exact .of_quiet rfl
    | some key =>
      have hkey : ∀ name ∈ [key], isIdentifier name = true := by
        simp only [List.mem_singleton, forall_eq]
        exact h.groupBy key hg
      have := lists_behind (t := " GROUP BY ") (by decide) (by decide) hkey
      simpa [Piece.lexemesWith] using this
  · generalize i + _ = k
    split
    · rename_i hempty
      rw [List.isEmpty_iff.mp hempty]
      exact .of_quiet rfl
    · have := lists_behind (t := " ORDER BY ") (by decide) (by decide) h.orderBy
      simpa [Piece.lexemesWith] using this

/-- Filters that stand apart keep what is in front of them solid, and add no OR. -/
theorem where_solid (hf : Fills fill) {filters : List Expr}
    (h : ∀ e ∈ filters, e.Over (isIdentifier · = true) ∧ e.Apart)
    {as : List Lexeme} (has : Solid as) (i : Nat) :
    Solid (as ++ Piece.lexemesWith fill i (wherePieces filters)) ∧
      bareOrs (as ++ Piece.lexemesWith fill i (wherePieces filters)) = bareOrs as := by
  induction filters generalizing as i with
  | nil =>
    show Solid (as ++ []) ∧ bareOrs (as ++ []) = _
    rw [List.append_nil]
    exact ⟨has, rfl⟩
  | cons e filters ih =>
    obtain ⟨⟨hover, hapart⟩, hrest⟩ := List.forall_mem_cons.mp h
    have hsolid := Expr.lexemes_solid hf hover hapart.1.root i
    have hors := Expr.bareOrs_apart hf hover hapart i
    have hand : MadeOf (Lexeme.quiet · = true) (lexText " AND ") := ⟨by decide, by decide⟩
    have handsolid : Solid (lexText " AND ") := .of_flat (hand.mono fun _ => Lexeme.bracket_of_quiet)
    obtain ⟨hall, hallors⟩ := ih hrest ((has.append handsolid).append hsolid)
      (i + (Piece.values e.pieces).length)
    rw [wherePieces_cons, Piece.lexemesWith, lexemesWith_append, ← List.append_assoc, ← List.append_assoc]
    refine ⟨hall, hallors.trans ?_⟩
    rw [bareOrs_append (has.append handsolid), bareOrs_append has, hors, bareOrs_quiet hand.2,
      List.append_nil, List.append_nil]

/-- **A statement of shaped filters.** It closes the parentheses that it opens, none of them with nothing
inside, and an OR outside of them is a name that is shown, read from, grouped or ordered by. -/
theorem lexemes_solid (hf : Fills fill) (h : s.Named)
    (hfilters : ∀ e ∈ s.filters, e.Apart) :
    Solid (Piece.lexemesWith fill 0 s.pieces) ∧
      bareOrs (Piece.lexemesWith fill 0 s.pieces) =
        orNames (s.columns ++ s.table :: (s.groupBy.toList ++ s.orderBy)) := by
  have hhead := head_lists h
  have hheadsolid : Solid (lexText ("SELECT " ++ s.projection ++ " FROM " ++ s.table ++ " WHERE 1=1")) :=
    .of_flat ⟨by rw [lexText_head h]; exact List.cons_ne_nil _ _, hhead.flat⟩
  obtain ⟨hsolid, hors⟩ := where_solid hf (fun e he => ⟨h.filters e he, hfilters e he⟩) hheadsolid 0
  have htail : Lexeme.Lists (Piece.lexemesWith fill _ s.tail) _ :=
    tail_lists h (0 + (Piece.values (wherePieces s.filters)).length)
  rw [pieces, head, Piece.lexemesWith, lexemesWith_append, ← List.append_assoc]
  refine ⟨hsolid.append_flat htail.flat, ?_⟩
  rw [bareOrs_append hsolid, hors, bareOrs_flat hhead.flat, bareOrs_flat htail.flat, hhead.ors, htail.ors,
    ← orNames_append, List.append_assoc]
  rfl

end Select

end BucketQuery.Sql
