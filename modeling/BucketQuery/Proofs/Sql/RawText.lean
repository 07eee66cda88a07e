import BucketQuery.Proofs.Sql.Enclosed

/-! Condition text behind the filters of a statement.

Text of the user's making is put in parentheses behind the filters of a statement. What a warehouse
makes of the whole depends on where it sees that parenthesis closed. Main statements, `encloses_iff`:
the parenthesis is closed by the one behind the text exactly when the text is balanced, and
`reads_withText`: then the statement reads as the filters and the text's own conditions, joined by
AND. -/
namespace BucketQuery.Sql

/-! ### Scans in parts -/

/-- A text is scanned in two parts if the second does not go on with a quote. -/
theorem scan_append {backslash : Bool} {place : Place} {as : List Char} {ms : List Mark}
    (h : scan backslash place as = some ms) {bs : List Char} (hbs : bs.head? ≠ some '\'') :
    scan backslash place (as ++ bs) = (scan backslash .outside bs).map (ms ++ ·) := by
  fun_induction scan backslash place as generalizing ms with
  | case1 =>
    cases h
    simp
  | case2 rest ih => rw [List.cons_append, scan, if_pos rfl, ih h]
  | case3 c rest hc ih =>
    obtain ⟨ms', hms', rfl⟩ := Option.map_eq_some_iff.mp h
    rw [List.cons_append, scan, if_neg hc, ih hms', Option.map_map]
    rfl
  | case4 => cases h
  | case5 content rest ih => rw [List.cons_append, scan, if_pos rfl, ih h]
  | case6 content c rest hc hb ih => rw [List.cons_append, scan, if_neg hc, if_pos hb, ih h]
  | case7 content c rest hc hb ih => rw [List.cons_append, scan, if_neg hc, if_neg hb, ih h]
  | case8 content =>
    cases h
    exact scan_quoted backslash content hbs
  | case9 content rest ih => rw [List.cons_append, scan, if_pos rfl, ih h]
  | case10 content c rest hc ih =>
    obtain ⟨ms', hms', rfl⟩ := Option.map_eq_some_iff.mp h
    rw [List.cons_append, scan, if_neg hc, ih hms', Option.map_map]
    rfl
  | case11 => cases h
  | case12 content c rest ih => rw [List.cons_append, scan, ih h]

theorem scan_parenthesized (d : Dialect) {before text after : String} {front inner back : List Mark}
    (hfront : d.scan before = some front) (hinner : d.scan text = some inner)
    (hback : d.scan after = some back) :
    d.scan (before ++ "(" ++ text ++ ")" ++ after) =
      some (front ++ .plain '(' :: (inner ++ .plain ')' :: back)) := by
  have hchars : (before ++ "(" ++ text ++ ")" ++ after).toList =
      before.toList ++ '(' :: (text.toList ++ ')' :: after.toList) := by
    simp [String.toList_append]
  have hopening (cs : List Char) : scan d.escapesByBackslash .outside ('(' :: cs) =
      (scan d.escapesByBackslash .outside cs).map (.plain '(' :: ·) := rfl
  have hclosing (cs : List Char) : scan d.escapesByBackslash .outside (')' :: cs) =
      (scan d.escapesByBackslash .outside cs).map (.plain ')' :: ·) := rfl
  unfold Dialect.scan at *
  rw [hchars, scan_append hfront (by simp), hopening, scan_append hinner (by simp), hclosing, hback]
  rfl

/-- As a dialect scans them for literals in single quotes, a parenthesis between the first two texts is closed
by one between the last two, and all three end outside of literals. -/
def Dialect.Encloses (d : Dialect) (before text after : String) : Prop :=
  ∃ front inner back, d.scan before = some front ∧ d.scan text = some inner ∧
    d.scan after = some back ∧
    d.scan (before ++ "(" ++ text ++ ")" ++ after) =
      some (front ++ .plain '(' :: (inner ++ .plain ')' :: back)) ∧
    Mark.behindClosing? 0 (inner ++ .plain ')' :: back) = some back

/-- A parenthesis in front of a text is closed by the one behind it exactly when the text is balanced. -/
theorem encloses_iff (d : Dialect) {before text after : String} {front back : List Mark}
    (hfront : d.scan before = some front) (hback : d.scan after = some back) :
    d.Encloses before text after ↔ d.balanced text = true := by
  rw [Dialect.balanced]
  constructor
  · rintro ⟨_, inner, back, _, hinner, _, _, hclosed⟩
    rw [hinner]
    exact decide_eq_true ((behindClosing_iff inner back).mp hclosed)
  · intro h
    split at h
    · rename_i inner hinner
      exact ⟨front, inner, back, hfront, hinner, hback, scan_parenthesized d hfront hinner hback,
        (behindClosing_iff inner back).mpr (of_decide_eq_true h)⟩
    · cases h

/-! ### Tokens in parts -/

theorem tokens_append (params : List Value) (met : Nat) (as bs : List Lexeme) :
    tokens params met (as ++ bs) =
      tokens params met as ++ tokens params (met + as.countP Lexeme.asks) bs := by
  induction as generalizing met with
  | nil => rfl
  | cons l as ih =>
    rw [List.cons_append, tokens, tokens, ih, List.countP_cons]
    cases l.asks with
    | true => rw [if_pos rfl, if_pos rfl, Nat.add_assoc, Nat.add_comm 1]; rfl
    | false => rfl

theorem asks_of_free {ls : List Lexeme} (h : ∀ l ∈ ls, l.asks = false) :
    ls.countP Lexeme.asks = 0 :=
  List.countP_eq_zero.mpr fun l hl => by rw [h l hl]; exact Bool.false_ne_true

theorem asks_text {s : String} (hs : s.toList.all isStatementChar = true) :
    (lexText s).countP Lexeme.asks = 0 :=
  asks_of_free (lex_free (plains_free hs))

namespace Piece
variable {d : Dialect} {ps : List Piece}

theorem asks_inline (hw : Within isStatementChar ps) (i : Nat) :
    (lexemesWith (fun _ v => v.marks d) i ps).countP Lexeme.asks = 0 := by
  induction ps generalizing i with
  | nil => rfl
  | cons p rest ih =>
    cases p with
    | text s =>
      obtain ⟨hs, hw⟩ := within_text.mp hw
      rw [lexemesWith, List.countP_append, ih hw, asks_text hs]
    | value v =>
      rw [lexemesWith, List.countP_append, ih (within_value.mp hw),
        asks_of_free (lex_free (marks_free d v))]

/-- Bound text has as many placeholders as values. -/
theorem asks_bound (hd : d ∈ Dialect.all) (hw : Within isStatementChar ps) (i : Nat) :
    (lexemesWith (fun i _ => Mark.plains (d.placeholder i).toList) i ps).countP Lexeme.asks =
      (values ps).length := by
  induction ps generalizing i with
  | nil => rfl
  | cons p rest ih =>
    cases p with
    | text s =>
      obtain ⟨hs, hw⟩ := within_text.mp hw
      rw [lexemesWith, List.countP_append, ih hw, asks_text hs,
        Nat.zero_add]
      rfl
    | value v =>
      have hv : (List.replicate (i + 1) v)[i]? = some v := by simp
      obtain ⟨l, hl, hasks, _⟩ := placeholder_token hd hv
      rw [lexemesWith, List.countP_append, ih (within_value.mp hw), hl, List.countP_singleton, hasks,
        if_pos rfl, Nat.add_comm]
      rfl

end Piece

end BucketQuery.Sql
