import BucketQuery.Proofs.Sql.Token

/-! Parentheses outside of literals.

Of a text only its parentheses matter for where a parenthesis in front of it is closed, and they are the
same among its marks as among the tokens that a reader makes of them (`brackets_tokens`). Main statement,
`behindClosing_iff`: a parenthesis behind a text closes the one in front of it exactly when the text is
balanced. -/
namespace BucketQuery.Sql

inductive Bracket where
  | opening
  | closing
deriving DecidableEq

/-- How many parentheses are open in the end if `opened` are in the beginning; none where more are closed
than have been opened. -/
def depth? : (opened : Nat) → List Bracket → Option Nat
  | n, [] => some n
  | n, .opening :: rest => depth? (n + 1) rest
  | 0, .closing :: _ => none
  | n + 1, .closing :: rest => depth? n rest

/-! ### Marks and tokens -/

def Mark.bracket : Mark → Option Bracket
  | .plain '(' => some .opening
  | .plain ')' => some .closing
  | .plain _ | .literal _ => none

def Lexeme.bracket : Lexeme → Option Bracket
  | .symbol '(' => some .opening
  | .symbol ')' => some .closing
  | .symbol _ | .word _ | .sign _ | .literal _ => none

def Token.bracket : Token → Option Bracket
  | .opening => some .opening
  | .closing => some .closing
  | .keyword _ | .column _ | .constant _ | .compare _ | .minus | .comma | .other => none

theorem parameterToken_bracket (params : List Value) (i : Nat) :
    (parameterToken params i).bracket = none := by
  rw [parameterToken]
  split <;> rfl

theorem wordToken_bracket (params : List Value) (cs : List Char) :
    (wordToken params cs).bracket = none := by
  rw [wordToken]
  split
  · rw [numberedToken]
    split
    · exact parameterToken_bracket _ _
    · rfl
  · rw [plainToken]
    split
    · rfl
    · split <;> rfl

theorem symbolToken_bracket (params : List Value) (met : Nat) (c : Char) :
    (symbolToken params met c).bracket = (Lexeme.symbol c).bracket := by
  by_cases hopening : c = '('
  · subst hopening
    rfl
  · by_cases hclosing : c = ')'
    · subst hclosing
      rfl
    · have hnone : (Lexeme.symbol c).bracket = none := by
        unfold Lexeme.bracket
        split <;> simp_all
      rw [hnone, symbolToken, if_neg hopening, if_neg hclosing]
      split
      · exact parameterToken_bracket _ _
      · split
        · rfl
        · split <;> rfl

theorem token_bracket (params : List Value) (met : Nat) (l : Lexeme) :
    (l.token params met).bracket = l.bracket := by
  cases l with
  | word cs => exact wordToken_bracket params cs
  | sign cs =>
    rw [Lexeme.token]
    split <;> rfl
  | symbol c => exact symbolToken_bracket params met c
  | literal content => rfl

theorem tokens_brackets (params : List Value) (met : Nat) (ls : List Lexeme) :
    (tokens params met ls).filterMap Token.bracket = ls.filterMap Lexeme.bracket := by
  induction ls generalizing met with
  | nil => rfl
  | cons l rest ih =>
    rw [tokens, List.filterMap_cons, List.filterMap_cons, token_bracket, ih]

theorem flush_brackets (r : Run) : r.flush.filterMap Lexeme.bracket = [] := by
  cases r <;> rfl

/-- A character that goes on a run is no parenthesis. -/
theorem extend_bracket {r longer : Run} {c : Char} (h : r.extend? c = some longer) :
    (Mark.plain c).bracket = none := by
  have hc : c ≠ '(' ∧ c ≠ ')' := by
    constructor
    · rintro rfl
      cases r <;> cases h
    · rintro rfl
      cases r <;> cases h
  unfold Mark.bracket
  split <;> simp_all

theorem start_brackets (c : Char) :
    (Run.start c).1.filterMap Lexeme.bracket = (Mark.plain c).bracket.toList := by
  by_cases hopening : c = '('
  · subst hopening
    rfl
  · by_cases hclosing : c = ')'
    · subst hclosing
      rfl
    · have hmark : (Mark.plain c).bracket = none := by
        unfold Mark.bracket
        split <;> simp_all
      have hsymbol : (Lexeme.symbol c).bracket = none := by
        unfold Lexeme.bracket
        split <;> simp_all
      rw [hmark, Run.start]
      split
      · rfl
      · split
        · rfl
        · split
          · rfl
          · rw [List.filterMap_cons, hsymbol]
            rfl

theorem step_brackets (r : Run) (m : Mark) :
    (r.step m).1.filterMap Lexeme.bracket = m.bracket.toList := by
  cases m with
  | literal content =>
    rw [Run.step, List.filterMap_append, flush_brackets]
    rfl
  | plain c =>
    rw [Run.step]
    split
    · rename_i longer h
      rw [extend_bracket h]
      rfl
    · rw [List.filterMap_append, flush_brackets, List.nil_append, start_brackets]

theorem lexFrom_brackets (r : Run) (ms : List Mark) :
    (lexFrom r ms).filterMap Lexeme.bracket = ms.filterMap Mark.bracket := by
  induction ms generalizing r with
  | nil => exact flush_brackets r
  | cons m rest ih =>
    rw [lexFrom, List.filterMap_append, step_brackets, ih, List.filterMap_cons]
    cases m.bracket <;> rfl

/-- A reader makes a token of each parenthesis outside of literals, and of nothing else. -/
theorem brackets_tokens (params : List Value) (met : Nat) (ms : List Mark) :
    (tokens params met (lex ms)).filterMap Token.bracket = ms.filterMap Mark.bracket :=
  (tokens_brackets params met _).trans (lexFrom_brackets .none ms)

/-! ### The closing parenthesis -/

/-- Every parenthesis in the marks is opened before it is closed, and closed in the end. -/
def Mark.Balanced (ms : List Mark) : Prop := depth? 0 (ms.filterMap Mark.bracket) = some 0

instance (ms : List Mark) : Decidable (Mark.Balanced ms) := by
  unfold Mark.Balanced
  infer_instance

/-- As a dialect scans it for literals in single quotes, the text ends outside of them and is balanced. -/
def Dialect.balanced (d : Dialect) (text : String) : Bool :=
  match d.scan text with
  | some ms => decide (Mark.Balanced ms)
  | none => false

/-- What follows the parenthesis that closes one in front of the marks, with more open in between. -/
def Mark.behindClosing? : (opened : Nat) → List Mark → Option (List Mark)
  | _, [] => none
  | n, m :: rest =>
    match m.bracket with
    | none => behindClosing? n rest
    | some .opening => behindClosing? (n + 1) rest
    | some .closing => if n = 0 then some rest else behindClosing? (n - 1) rest

theorem behindClosing_length {n : Nat} {ms rest : List Mark} (h : Mark.behindClosing? n ms = some rest) :
    rest.length < ms.length := by
  induction ms generalizing n with
  | nil => cases h
  | cons m ms ih =>
    rw [Mark.behindClosing?] at h
    rw [List.length_cons]
    split at h
    · exact Nat.lt_succ_of_lt (ih h)
    · exact Nat.lt_succ_of_lt (ih h)
    · split at h
      · cases h
        exact Nat.lt_succ_self _
      · exact Nat.lt_succ_of_lt (ih h)

theorem behindClosing_depth_iff (n : Nat) (ms back : List Mark) :
    Mark.behindClosing? n (ms ++ .plain ')' :: back) = some back ↔
      depth? n (ms.filterMap Mark.bracket) = some 0 := by
  induction ms generalizing n with
  | nil =>
    cases n with
    | zero => exact iff_of_true rfl rfl
    | succ n =>
      refine iff_of_false (fun h => ?_) (by simp [depth?])
      exact Nat.lt_irrefl _ (behindClosing_length (n := n) h)
  | cons m ms ih =>
    rw [List.cons_append, Mark.behindClosing?, List.filterMap_cons]
    cases m.bracket with
    | none => exact ih n
    | some b =>
      cases b with
      | opening => exact ih (n + 1)
      | closing =>
        cases n with
        | zero =>
          refine iff_of_false (fun h => ?_) (by simp [depth?])
          have hlength := congrArg List.length (Option.some.inj h)
          rw [List.length_append, List.length_cons] at hlength
          omega
        | succ n => exact ih n

/-- A parenthesis behind marks closes the one in front of them exactly if they are balanced. -/
theorem behindClosing_iff (ms back : List Mark) :
    Mark.behindClosing? 0 (ms ++ .plain ')' :: back) = some back ↔ Mark.Balanced ms :=
  behindClosing_depth_iff 0 ms back

end BucketQuery.Sql
