import BucketQuery.Proofs.Sql.Bracket
import BucketQuery.Proofs.Sql.Clause

/-! The shape of conditions, and of their text.

A chain is written without parentheses of its own, so what its connectives bind to depends on where it
stands. `Expr.Shaped` says where that may be, and that whatever is put in parentheses is something. Main
statement, `Expr.lexemes_solid`: the text of a shaped expression closes all the parentheses that it opens,
and none of them right behind the one in front of it. -/
namespace BucketQuery.Sql

open BucketQuery.Filter (Connective)

/-! ### Shapes -/

namespace Expr

def isRaw : Expr → Bool
  | .raw _ => true
  | .compare .. | .like .. | .between .. | .isNull .. | .inList .. | .not _ | .nested _ | .chain _ => false

/-- A comparison, a pattern or a range. -/
def isTest : Expr → Bool
  | .compare .. | .like .. | .between .. => true
  | .raw _ | .isNull .. | .inList .. | .not _ | .nested _ | .chain _ => false

mutual

/-- A chain has two items or more, none of them a chain or trusted text; it stands right inside
parentheses or, if it may, at the root. A negation is that of a single test. No list is empty, and no
trusted text. -/
def Shaped (root : Bool) : Expr → Prop
  | .raw text => text ≠ ""
  | .compare .. | .like .. | .between .. | .isNull .. => True
  | .inList _ values => values ≠ []
  | .not e => e.isTest = true
  | .nested e => e.Shaped true
  | .chain items => root = true ∧ 2 ≤ items.length ∧ ShapedItems items

def ShapedItems : List (Connective × Expr) → Prop
  | [] => True
  | (_, e) :: rest => (e.isRaw = false ∧ e.Shaped false) ∧ ShapedItems rest

end

mutual

/-- The most parentheses around a part of the expression. -/
def nesting : Expr → Nat
  | .raw _ | .compare .. | .like .. | .between .. | .isNull .. | .inList .. => 0
  | .not e => e.nesting
  | .nested e => e.nesting + 1
  | .chain items => nestingItems items

def nestingItems : List (Connective × Expr) → Nat
  | [] => 0
  | (_, e) :: rest => max e.nesting (nestingItems rest)

end

theorem shapedItems_iff {items : List (Connective × Expr)} :
    ShapedItems items ↔ ∀ item ∈ items, item.2.isRaw = false ∧ item.2.Shaped false := by
  induction items with
  | nil => simp [ShapedItems]
  | cons item rest ih => rw [ShapedItems, ih, List.forall_mem_cons]

theorem nesting_chain_le_iff {items : List (Connective × Expr)} {n : Nat} :
    (chain items).nesting ≤ n ↔ ∀ item ∈ items, item.2.nesting ≤ n := by
  show nestingItems items ≤ n ↔ _
  induction items with
  | nil => simp [nestingItems]
  | cons item rest ih => rw [nestingItems, Nat.max_le, ih, List.forall_mem_cons]

/-- What may stand beside others may stand at the root. -/
theorem Shaped.root {e : Expr} (h : e.Shaped false) : e.Shaped true := by
  cases e with
  | chain items => exact absurd h.1 Bool.false_ne_true
  | _ => exact h

/-- A test is shaped wherever it stands. -/
theorem shaped_of_isTest {e : Expr} (h : e.isTest = true) (root : Bool) : e.Shaped root := by
  cases e with
  | compare | like | between => trivial
  | _ => cases h

end Expr

/-! ### Text without hollow parentheses -/

namespace Lexeme

/-- Something that is made of lexemes of a kind. -/
def MadeOf (P : Lexeme → Prop) (ls : List Lexeme) : Prop := ls ≠ [] ∧ ∀ l ∈ ls, P l

theorem MadeOf.append {P : Lexeme → Prop} {as bs : List Lexeme} (ha : MadeOf P as) (hb : MadeOf P bs) :
    MadeOf P (as ++ bs) :=
  ⟨List.append_ne_nil_of_left_ne_nil ha.1 bs, List.forall_mem_append.mpr ⟨ha.2, hb.2⟩⟩

theorem MadeOf.mono {P Q : Lexeme → Prop} {ls : List Lexeme} (h : MadeOf P ls) (himp : ∀ l, P l → Q l) :
    MadeOf Q ls :=
  ⟨h.1, fun l hl => himp l (h.2 l hl)⟩

/-- No parenthesis is closed right behind the place where it is opened. -/
def Filled (ls : List Lexeme) : Prop :=
  ls.IsChain fun a b => ¬ (a.bracket = some .opening ∧ b.bracket = some .closing)

/-- Something that may be put in parentheses, or beside something else of the kind. -/
structure Solid (ls : List Lexeme) : Prop where
  filled : Filled ls
  /-- Parentheses are closed in order, all of them. -/
  balanced : ∀ n, depth? n (ls.filterMap bracket) = some n
  nonempty : ls ≠ []
  start : ∀ l ∈ ls.head?, l.bracket ≠ some .closing
  finish : ∀ l ∈ ls.getLast?, l.bracket ≠ some .opening

end Lexeme

theorem depth_append (n : Nat) (as bs : List Bracket) :
    depth? n (as ++ bs) = (depth? n as).bind fun m => depth? m bs := by
  induction as generalizing n with
  | nil => rfl
  | cons a as ih =>
    cases a with
    | opening => exact ih (n + 1)
    | closing =>
      cases n with
      | zero => rfl
      | succ n => exact ih n

namespace Lexeme

section Solid
variable {as bs ls : List Lexeme}

theorem Solid.append (ha : Solid as) (hb : Solid bs) : Solid (as ++ bs) where
  filled := by
    refine List.isChain_append.mpr ⟨ha.filled, hb.filled, fun a h _ _ hbrackets => ?_⟩
    exact ha.finish a h hbrackets.1
  balanced n := by
    rw [List.filterMap_append, depth_append, ha.balanced, Option.bind_some, hb.balanced]
  nonempty := List.append_ne_nil_of_left_ne_nil ha.nonempty bs
  start := by
    rw [List.head?_append_of_ne_nil _ ha.nonempty]
    exact ha.start
  finish := by
    rw [List.getLast?_append_of_ne_nil _ hb.nonempty]
    exact hb.finish

/-- In parentheses it is something again. -/
theorem Solid.enclosed (h : Solid ls) : Solid (.symbol '(' :: (ls ++ [.symbol ')'])) where
  filled := by
    refine List.isChain_cons.mpr ⟨fun b hb hbrackets => ?_, List.isChain_append.mpr
      ⟨h.filled, List.isChain_singleton _, fun a ha _ _ hbrackets => h.finish a ha hbrackets.1⟩⟩
    rw [List.head?_append_of_ne_nil _ h.nonempty] at hb
    exact h.start b hb hbrackets.2
  balanced n := by
    show depth? (n + 1) ((ls ++ [Lexeme.symbol ')']).filterMap bracket) = some n
    rw [List.filterMap_append, depth_append, h.balanced]
    rfl
  nonempty := List.cons_ne_nil _ _
  start l hl := by
    cases hl
    exact nofun
  finish l hl := by
    rw [← List.cons_append, List.getLast?_concat] at hl
    cases hl
    exact nofun

/-- Something without parentheses. -/
theorem Solid.of_flat (h : MadeOf (bracket · = none) ls) : Solid ls where
  filled := by
    have hall : ∀ l ∈ ls, l.bracket ≠ some .opening := fun l hl => by simp [h.2 l hl]
    refine List.isChain_iff_getElem.mpr fun i hi hbrackets => ?_
    exact hall _ (List.getElem_mem _) hbrackets.1
  balanced n := by
    rw [List.filterMap_eq_nil_iff.mpr h.2]
    rfl
  nonempty := h.1
  start l hl := by simp [h.2 l (List.mem_of_mem_head? hl)]
  finish l hl := by simp [h.2 l (List.mem_of_getLast? hl)]

/-- What has no parentheses may follow, be it nothing. -/
theorem Solid.append_flat (h : Solid as) (hflat : ∀ l ∈ bs, l.bracket = none) : Solid (as ++ bs) := by
  by_cases hne : bs = []
  · rwa [hne, List.append_nil]
  · exact h.append (.of_flat ⟨hne, hflat⟩)

end Solid

/-- Neither a parenthesis nor an OR. -/
def quiet (l : Lexeme) : Bool := l.bracket.isNone && !l.isWord "OR"

theorem bracket_of_quiet {l : Lexeme} (h : l.quiet = true) : l.bracket = none := by
  simp only [quiet, Bool.and_eq_true, Option.isNone_iff_eq_none] at h
  exact h.1

end Lexeme

/-! ### The text of expressions -/

/-- What values are filled in with: something with neither a parenthesis nor an OR. -/
def Fills (fill : Nat → Value → List Mark) : Prop :=
  ∀ i v, Lexeme.MadeOf (Lexeme.quiet · = true) (lex (fill i v))

theorem quiet_word {c : Char} (cs : List Char) (h : c.toUpper ≠ 'O') : (Lexeme.word (c :: cs)).quiet = true := by
  simp [Lexeme.quiet, Lexeme.bracket, Lexeme.isWord, h]

theorem quiet_numeral {body : List Char} {x : Rat} (h : Numeral body x) :
    (Lexeme.word body).quiet = true := by
  obtain ⟨c, cs, rfl, hc⟩ := h.leads
  refine quiet_word cs fun heq => ?_
  rw [Text.toUpper_of_digit hc] at heq
  rw [heq] at hc
  exact absurd hc (by decide)

/-- The lexemes of a literal. -/
theorem lex_literal (d : Dialect) (v : Value) :
    (∃ content, lex (v.marks d) = [.literal content]) ∨ lex (v.marks d) = [.word "NULL".toList] ∨
      ∃ body x, Numeral body x ∧
        (lex (v.marks d) = [.word body] ∨ lex (v.marks d) = [.symbol '-', .word body]) := by
  unfold Value.marks
  cases hc : v.content? with
  | some s => exact .inl ⟨s.toList, rfl⟩
  | none =>
    refine .inr ?_
    rcases literal_spells d hc with ⟨htext, _⟩ | ⟨negative, body, x, htext, hbody, _⟩
    · have hnull : lex (Mark.plains "NULL".toList) = [.word "NULL".toList] := by decide
      rw [htext]
      exact .inl hnull
    · refine .inr ⟨body, x, hbody, ?_⟩
      rw [htext]
      cases negative with
      | false => exact .inl (lex_numeral hbody)
      | true => exact .inr (congrArg (Lexeme.symbol '-' :: ·) (lex_numeral hbody))

theorem fills_inline (d : Dialect) : Fills fun _ v => v.marks d := by
  intro _ v
  have hminus : (Lexeme.symbol '-').quiet = true := by decide
  rcases lex_literal d v with ⟨content, h⟩ | h | ⟨body, x, hbody, h | h⟩
  · simp [Lexeme.MadeOf, h, Lexeme.quiet, Lexeme.bracket, Lexeme.isWord]
  · rw [h]
    exact ⟨List.cons_ne_nil _ _, by decide⟩
  · simp [Lexeme.MadeOf, h, quiet_numeral hbody]
  · simp [Lexeme.MadeOf, h, quiet_numeral hbody, hminus]

theorem quiet_of_asks {l : Lexeme} (h : l.asks = true) : l.quiet = true := by
  cases l with
  | word cs =>
    cases cs with
    | nil => cases h
    | cons c cs =>
      have hc : c = '$' := by simpa [Lexeme.asks] using h
      rw [hc]
      exact quiet_word cs (by decide)
  | symbol c =>
    have hc : c = '?' := by simpa [Lexeme.asks] using h
    rw [hc]
    decide
  | sign | literal => cases h

theorem fills_bound {d : Dialect} (hd : d ∈ Dialect.all) :
    Fills fun i _ => Mark.plains (d.placeholder i).toList := by
  intro i v
  have hparam : (List.replicate (i + 1) v)[i]? = some v := by simp
  obtain ⟨l, hl, hasks, _⟩ := placeholder_token hd hparam
  dsimp only
  rw [hl]
  exact ⟨List.cons_ne_nil _ _, fun l hm => by
    rw [List.mem_singleton.mp hm]
    exact quiet_of_asks hasks⟩

/-- An expression of a single test, negated or not, or of a test for NULL. -/
def Expr.isFlat : Expr → Bool
  | .isNull .. => true
  | e => e.isTest

section Texts
variable {fill : Nat → Value → List Mark}

theorem lexemesWith_append (i : Nat) (ps qs : List Piece) :
    Piece.lexemesWith fill i (ps ++ qs) =
      Piece.lexemesWith fill i ps ++ Piece.lexemesWith fill (i + (Piece.values ps).length) qs := by
  induction ps generalizing i with
  | nil => rfl
  | cons p ps ih =>
    cases p with
    | text s => simp only [List.cons_append, Piece.lexemesWith, Piece.values, ih, List.append_assoc]
    | value v =>
      simp only [List.cons_append, Piece.lexemesWith, Piece.values, ih, List.append_assoc,
        List.length_cons, Nat.add_assoc, Nat.add_comm 1]

/-- A flat expression is made of its column, and of what no column has a part in. -/
theorem flat_madeOf (hf : Fills fill) {P : Lexeme → Prop} (hP : ∀ l, l.quiet = true → P l) {e : Expr}
    (hflat : e.isFlat = true)
    (hover : e.Over fun column => isIdentifier column = true ∧ P (.word column.toList)) (i : Nat) :
    Lexeme.MadeOf P (Piece.lexemesWith fill i e.pieces) := by
  have hvalue (i : Nat) (v : Value) : Lexeme.MadeOf P (lex (fill i v)) := (hf i v).mono hP
  have hcolumn {column t : String} (h : isIdentifier column = true ∧ P (.word column.toList))
      (hapart : (Piece.text t).startsApart = true) (hquiet : (lexText t).all Lexeme.quiet = true) :
      Lexeme.MadeOf P (lexText (column ++ t)) := by
    rw [lexText_identifier_append h.1 hapart]
    refine ⟨List.cons_ne_nil _ _, List.forall_mem_cons.mpr ⟨h.2, fun l hl => hP l ?_⟩⟩
    exact List.all_eq_true.mp hquiet l hl
  cases e with
  | compare column op v =>
    rw [Expr.pieces, String.append_assoc, String.append_assoc]
    simp only [Piece.lexemesWith, List.append_nil]
    exact (hcolumn hover (by cases op <;> decide) (by cases op <;> decide)).append (hvalue _ v)
  | like column v negated =>
    simp only [Expr.pieces, Piece.lexemesWith, List.append_nil]
    exact (hcolumn hover (by cases negated <;> decide) (by cases negated <;> decide)).append (hvalue _ v)
  | between column low high negated =>
    have hand : Lexeme.MadeOf P (lexText " AND ") :=
      Lexeme.MadeOf.mono (P := (Lexeme.quiet · = true)) ⟨by decide, by decide⟩ hP
    simp only [Expr.pieces, Piece.lexemesWith, List.append_nil]
    exact (hcolumn hover (by cases negated <;> decide) (by cases negated <;> decide)).append
      ((hvalue _ low).append (hand.append (hvalue _ high)))
  | isNull column negated =>
    simp only [Expr.pieces, Piece.lexemesWith, List.append_nil]
    exact hcolumn hover (by cases negated <;> decide) (by cases negated <;> decide)
  | _ => cases hflat

theorem listPieces_madeOf (hf : Fills fill) {vs : List Value} (hne : vs ≠ []) (i : Nat) :
    Lexeme.MadeOf (Lexeme.bracket · = none) (Piece.lexemesWith fill i (listPieces vs)) := by
  have hvalue (i : Nat) (v : Value) : Lexeme.MadeOf (Lexeme.bracket · = none) (lex (fill i v)) :=
    (hf i v).mono fun _ => Lexeme.bracket_of_quiet
  induction vs generalizing i with
  | nil => exact absurd rfl hne
  | cons v vs ih =>
    cases vs with
    | nil =>
      simp only [listPieces, Piece.lexemesWith, List.append_nil]
      exact hvalue i v
    | cons next vs =>
      have hcomma : Lexeme.MadeOf (Lexeme.bracket · = none) (lexText ", ") := ⟨by decide, by decide⟩
      exact (hvalue i v).append (hcomma.append (ih (List.cons_ne_nil _ _) _))

/-- Pieces in parentheses, behind the text that opens them. -/
theorem lexemesWith_enclosed {t : String} {front : List Lexeme} (h : lexText t = front ++ [.symbol '('])
    (i : Nat) (ps : List Piece) :
    Piece.lexemesWith fill i (.text t :: (ps ++ [.text ")"])) =
      front ++ .symbol '(' :: (Piece.lexemesWith fill i ps ++ [.symbol ')']) := by
  have hclosing : lexText ")" = [.symbol ')'] := by decide
  rw [Piece.lexemesWith, lexemesWith_append, h, Piece.lexemesWith, hclosing, Piece.lexemesWith,
    List.append_assoc, List.singleton_append, List.append_nil]

/-- The text that opens the list of a column. -/
theorem lexText_in {column : String} (h : isIdentifier column = true) :
    lexText (column ++ " IN (") = [.word column.toList, .word "IN".toList] ++ [.symbol '('] := by
  have hin : lexText " IN (" = [.word "IN".toList, .symbol '('] := by decide
  rw [lexText_identifier_append h (by decide), hin]
  rfl

theorem lexText_not : lexText "NOT (" = [.word "NOT".toList] ++ [.symbol '('] := by decide

theorem lexText_opening : lexText "(" = [] ++ [.symbol '('] := by decide

/-- What is solid stays so with the items of a chain behind it. -/
theorem Lexeme.Solid.append_rest {items : List (Connective × Expr)}
    (h : ∀ item ∈ items, ∀ i, Solid (Piece.lexemesWith fill i item.2.pieces)) {as : List Lexeme}
    (has : Solid as) (i : Nat) : Solid (as ++ Piece.lexemesWith fill i (Expr.restPieces items)) := by
  induction items generalizing as i with
  | nil =>
    show Solid (as ++ [])
    rwa [List.append_nil]
  | cons item rest ih =>
    obtain ⟨c, e⟩ := item
    rw [List.forall_mem_cons] at h
    have hword : Solid (lexText (" " ++ c.text ++ " ")) :=
      .of_flat (by cases c <;> exact ⟨by decide, by decide⟩)
    rw [Expr.restPieces, Piece.lexemesWith, lexemesWith_append, ← List.append_assoc, ← List.append_assoc]
    exact ih h.2 ((has.append hword).append (h.1 _)) _

/-- **Shaped expressions have solid text.** Whatever values are filled in with, the text closes every
parenthesis that it opens, and none of them with nothing inside. -/
theorem Expr.lexemes_solid (hf : Fills fill) {e : Expr} (hover : e.Over (isIdentifier · = true))
    (hs : e.Shaped true) (i : Nat) : Lexeme.Solid (Piece.lexemesWith fill i e.pieces) := by
  have hflat {e : Expr} (hflat : e.isFlat = true) (hover : e.Over (isIdentifier · = true)) (i : Nat) :
      Lexeme.Solid (Piece.lexemesWith fill i e.pieces) :=
    .of_flat (flat_madeOf hf (fun _ => Lexeme.bracket_of_quiet) hflat
      (over_mono (fun _ h => ⟨h, rfl⟩) hover) i)
  induction e using Expr.induct generalizing i with
  | raw text => exact absurd hover id
  | compare | like | between | isNull => exact hflat rfl hover i
  | inList column vs =>
    cases vs with
    | nil => exact absurd rfl hs
    | cons v vs =>
      have hfront : Lexeme.Solid [.word column.toList, .word "IN".toList] :=
        .of_flat ⟨List.cons_ne_nil _ _, by simp [Lexeme.bracket]⟩
      rw [Expr.pieces, lexemesWith_enclosed (lexText_in hover)]
      exact hfront.append (Lexeme.Solid.of_flat (listPieces_madeOf hf (List.cons_ne_nil _ _) i)).enclosed
  | not e ih =>
    have hfront : Lexeme.Solid [.word "NOT".toList] := .of_flat ⟨List.cons_ne_nil _ _, by decide⟩
    rw [Expr.pieces, lexemesWith_enclosed lexText_not]
    exact hfront.append (ih hover (shaped_of_isTest hs true) i).enclosed
  | nested e ih =>
    rw [Expr.pieces, lexemesWith_enclosed lexText_opening]
    exact (ih hover hs i).enclosed
  | chain items ih =>
    obtain ⟨-, hlength, hitems⟩ := hs
    rw [shapedItems_iff] at hitems
    rw [over_chain] at hover
    have hsolid (item : Connective × Expr) (hitem : item ∈ items) (i : Nat) :
        Lexeme.Solid (Piece.lexemesWith fill i item.2.pieces) :=
      ih item hitem (hover item hitem) (hitems item hitem).2.root i
    cases items with
    | nil => cases hlength
    | cons item rest =>
      rw [Expr.pieces, lexemesWith_append]
      exact (hsolid item List.mem_cons_self i).append_rest
        (fun item h => hsolid item (List.mem_cons_of_mem _ h)) _

end Texts

/-- What a dialect scans in the text of some pieces, in either mode, are their lexemes, with the values
filled in. -/
theorem scan_lexemes {d : Dialect} (hd : d ∈ Dialect.all) (mode : LiteralMode) {ps : List Piece}
    (hj : Piece.Jointed ps) (hw : Piece.Within isStatementChar ps) :
    ∃ ms fill, Fills fill ∧ d.scan (Piece.render d mode ps).sql = some ms ∧
      lex ms = Piece.lexemesWith fill 0 ps := by
  cases mode with
  | bound =>
    refine ⟨_, _, fills_bound hd, Piece.scan_boundText hd 0 hw, ?_⟩
    rw [Piece.boundMarks_marksWith, Piece.lex_marksWith _ _ hj]
  | inline =>
    refine ⟨_, _, fills_inline d, Piece.scan_inlineText hd hj hw, ?_⟩
    rw [Piece.inlineMarks_marksWith d 0, Piece.lex_marksWith _ _ hj]

end BucketQuery.Sql
