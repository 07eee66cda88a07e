import BucketQuery.Proofs.Sql.Lexeme

/-! What words and signs stand for.

Keywords are known in any letter case, numerals are numbers, and a placeholder stands for its
parameter: a question mark for the next one, a dollar sign for the one of its number. Any other
word is a column. Main statement, `tokens_lexemesWith`: read from either rendering, each value of
some pieces is a few tokens that stand for it, and the fixed text reads as it would alone. -/
namespace BucketQuery.Sql

open BucketQuery.Filter (Comparison)

/-- The words that conditions are made with, and those that may follow one. -/
inductive Keyword where
  | and
  | or
  | not
  | between
  | like
  | isIn
  | is
  | null
  | group
  | order
deriving DecidableEq

def keywords : List (List Char × Keyword) := [
  ("AND".toList, .and), ("OR".toList, .or), ("NOT".toList, .not), ("BETWEEN".toList, .between),
  ("LIKE".toList, .like), ("IN".toList, .isIn), ("IS".toList, .is), ("NULL".toList, .null),
  ("GROUP".toList, .group), ("ORDER".toList, .order)]

def keyword? (word : List Char) : Option Keyword := keywords.lookup (word.map Char.toUpper)

def comparisons : List (List Char × Comparison) := [
  ("=".toList, .eq), ("<>".toList, .ne), ("!=".toList, .ne), (">".toList, .gt), ("<".toList, .lt),
  (">=".toList, .ge), ("<=".toList, .le)]

inductive Token where
  | keyword (k : Keyword)
  | column (name : String)
  | constant (v : Operand)
  | compare (op : Comparison)
  | minus
  | opening
  | closing
  | comma
  | other
deriving DecidableEq

/-- The parameter at a place. -/
def parameterToken (params : List Value) (i : Nat) : Token :=
  match params[i]? with
  | some v => .constant v.operand
  | none => .other

/-- The parameter of a number, counted from one. -/
def numberedToken (params : List Value) (ds : List Char) : Token :=
  if ds.all Char.isDigit && Double.digitsValue ds != 0 then
    parameterToken params (Double.digitsValue ds - 1)
  else .other

def plainToken (cs : List Char) : Token :=
  match keyword? cs with
  | some k => .keyword k
  | none =>
    match numeral? cs with
    | some x => .constant (.number x)
    | none => .column (String.ofList cs)

def wordToken (params : List Value) (cs : List Char) : Token :=
  if cs.head? = some '$' then numberedToken params cs.tail else plainToken cs

def symbolToken (params : List Value) (met : Nat) (c : Char) : Token :=
  if c = '?' then parameterToken params met
  else if c = '(' then .opening
  else if c = ')' then .closing
  else if c = ',' then .comma
  else if c = '-' then .minus
  else .other

namespace Lexeme

/-- What a lexeme stands for when `met` placeholders stand before it. -/
def token (params : List Value) (met : Nat) : Lexeme → Token
  | .word cs => wordToken params cs
  | .sign cs =>
    match comparisons.lookup cs with
    | some op => .compare op
    | none => .other
  | .symbol c => symbolToken params met c
  | .literal content => .constant (.text (String.ofList content))

/-- The lexeme is a placeholder. -/
def asks : Lexeme → Bool
  | .word cs => cs.head? == some '$'
  | .symbol c => c == '?'
  | .sign _ | .literal _ => false

end Lexeme

def tokens (params : List Value) : (met : Nat) → List Lexeme → List Token
  | _, [] => []
  | met, l :: rest => l.token params met :: tokens params (if l.asks then met + 1 else met) rest

/-! ### Lexemes that are not placeholders -/

namespace Lexeme

theorem token_of_not_asks (params : List Value) (met : Nat) {l : Lexeme} (h : l.asks = false) :
    l.token params met = l.token [] 0 := by
  cases l with
  | word cs =>
    have hc : cs.head? ≠ some '$' := beq_eq_false_iff_ne.mp h
    simp only [token, wordToken, if_neg hc]
  | symbol c =>
    have hc : c ≠ '?' := by
      rintro rfl
      cases h
    simp only [token, symbolToken, if_neg hc]
  | sign cs => rfl
  | literal content => rfl

end Lexeme

theorem tokens_append_free (params : List Value) (met : Nat) {as : List Lexeme}
    (h : ∀ l ∈ as, l.asks = false) (bs : List Lexeme) :
    tokens params met (as ++ bs) = as.map (Lexeme.token [] 0) ++ tokens params met bs := by
  induction as with
  | nil => rfl
  | cons l as ih =>
    rw [List.forall_mem_cons] at h
    rw [List.cons_append, tokens, h.1, if_neg Bool.false_ne_true, ih h.2,
      Lexeme.token_of_not_asks params met h.1]
    rfl

/-- The marks have no part in a placeholder. -/
def Mark.Free (ms : List Mark) : Prop := ∀ c, .plain c ∈ ms → c ≠ '$' ∧ c ≠ '?'

def Run.Free : Run → Prop
  | .word cs => '$' ∉ cs
  | .none | .sign _ => True

theorem flush_free {r : Run} (h : r.Free) : ∀ l ∈ r.flush, l.asks = false := by
  cases r with
  | none => exact fun l hl => absurd hl List.not_mem_nil
  | word cs =>
    intro l hl
    rw [List.mem_singleton.mp hl, Lexeme.asks, beq_eq_false_iff_ne]
    exact fun hc => h (List.mem_of_mem_head? hc)
  | sign cs =>
    intro l hl
    rw [List.mem_singleton.mp hl]
    rfl

theorem extend_free {r longer : Run} {c : Char} (h : r.Free) (hc : c ≠ '$')
    (hx : r.extend? c = some longer) : longer.Free := by
  cases r with
  | none => cases hx
  | word cs =>
    rw [Run.extend?] at hx
    split at hx
    · cases hx
      exact fun hm => (List.mem_append.mp hm).elim h fun hm => hc (List.mem_singleton.mp hm).symm
    · cases hx
  | sign cs =>
    rw [Run.extend?] at hx
    split at hx
    · cases hx
      trivial
    · cases hx

theorem start_free {c : Char} (hc : c ≠ '$' ∧ c ≠ '?') :
    (∀ l ∈ (Run.start c).1, l.asks = false) ∧ (Run.start c).2.Free := by
  unfold Run.start
  split
  · exact ⟨fun l hl => absurd hl List.not_mem_nil, trivial⟩
  · split
    · exact ⟨fun l hl => absurd hl List.not_mem_nil, fun hm => hc.1 (List.mem_singleton.mp hm).symm⟩
    · split
      · exact ⟨fun l hl => absurd hl List.not_mem_nil, trivial⟩
      · refine ⟨fun l hl => ?_, trivial⟩
        rw [List.mem_singleton.mp hl]
        exact beq_eq_false_iff_ne.mpr hc.2

theorem lexFrom_free {r : Run} (h : r.Free) {ms : List Mark} (hms : Mark.Free ms) :
    ∀ l ∈ lexFrom r ms, l.asks = false := by
  induction ms generalizing r with
  | nil => exact flush_free h
  | cons m rest ih =>
    have hrest : Mark.Free rest := fun c hc => hms c (List.mem_cons_of_mem _ hc)
    intro l hl
    rcases List.mem_append.mp hl with hl | hl
    · cases m with
      | literal content =>
        rcases List.mem_append.mp hl with hl | hl
        · exact flush_free h l hl
        · rw [List.mem_singleton.mp hl]
          rfl
      | plain c =>
        have hc := hms c List.mem_cons_self
        rw [Run.step] at hl
        split at hl
        · cases hl
        · rcases List.mem_append.mp hl with hl | hl
          · exact flush_free h l hl
          · exact (start_free hc).1 l hl
    · refine ih (r := (r.step m).2) ?_ hrest l hl
      cases m with
      | literal content => trivial
      | plain c =>
        have hc := hms c List.mem_cons_self
        rw [Run.step]
        split
        · rename_i longer hx
          exact extend_free h hc.1 hx
        · exact (start_free hc).2

theorem lex_free {ms : List Mark} (h : Mark.Free ms) : ∀ l ∈ lex ms, l.asks = false :=
  lexFrom_free (r := .none) trivial h

theorem plains_free {cs : List Char} (h : cs.all isStatementChar = true) :
    Mark.Free (Mark.plains cs) := by
  intro c hc
  have hm := Mark.plain_mem_plains.mp hc
  constructor
  · rintro rfl
    exact not_mem_of_all h (by decide) hm
  · rintro rfl
    exact not_mem_of_all h (by decide) hm

/-! ### Values -/

/-- The tokens of a value that is written inline. -/
def inlineTokens (d : Dialect) (v : Value) : List Token := (lex (v.marks d)).map (Lexeme.token [] 0)

/-- The token of a value that is a parameter. -/
def boundTokens (v : Value) : List Token := [.constant v.operand]

/-- A placeholder is one lexeme and stands for the parameter at its place. -/
theorem placeholder_token {d : Dialect} (hd : d ∈ Dialect.all) {params : List Value} {i : Nat}
    {v : Value} (h : params[i]? = some v) :
    ∃ l, lex (Mark.plains (d.placeholder i).toList) = [l] ∧ l.asks = true ∧
      l.token params i = .constant v.operand := by
  have hparam : parameterToken params i = .constant v.operand := by
    rw [parameterToken, h]
  have hmark : ∃ l, lex (Mark.plains "?".toList) = [l] ∧ l.asks = true ∧
      l.token params i = .constant v.operand := ⟨.symbol '?', by decide, rfl, hparam⟩
  refine forall_dialects (P := fun d => ∃ l, lex (Mark.plains (d.placeholder i).toList) = [l] ∧
    l.asks = true ∧ l.token params i = .constant v.operand) hmark hmark ?_ hd
  have htext : ("$" ++ toString (i + 1)).toList = '$' :: Nat.toDigits 10 (i + 1) := by
    simp [Nat.toList_repr]
  have hdigits := Double.toDigits_all (i + 1)
  have hchars : ('$' :: Nat.toDigits 10 (i + 1)).all isWordChar = true := by
    rw [List.all_cons, wordChars_of_identifierChars (identifierChars_of_digits hdigits)]
    rfl
  refine ⟨.word ('$' :: Nat.toDigits 10 (i + 1)), ?_, rfl, ?_⟩
  · show lex (Mark.plains ("$" ++ toString (i + 1)).toList) = _
    rw [htext]
    exact lex_word (List.cons_ne_nil _ _) hchars
  · show wordToken params ('$' :: Nat.toDigits 10 (i + 1)) = _
    rw [wordToken, if_pos List.head?_cons, List.tail_cons, numberedToken, hdigits,
      Double.digitsValue_toDigits]
    exact hparam

theorem marks_free (d : Dialect) (v : Value) : Mark.Free (v.marks d) := by
  unfold Value.marks
  cases hc : v.content? with
  | some s =>
    intro c hm
    cases List.mem_singleton.mp hm
  | none =>
    obtain ⟨body, hbody, hcs⟩ := literal_bare (d := d) hc
    have hfree := plains_free (statementChars_of_identifierChars hbody)
    rcases hcs with hcs | ⟨hcs, _⟩
    · rwa [hcs]
    · rw [hcs]
      intro c hm
      rcases List.mem_cons.mp hm with hm | hm
      · cases hm
        decide
      · exact hfree c hm

/-! ### Pieces -/

/-- The tokens of fixed text. -/
def textTokens (s : String) : List Token := (lexText s).map (Lexeme.token [] 0)

namespace Piece

/-- The tokens of pieces, where `w` gives those of a value. -/
def tokens (w : Value → List Token) : List Piece → List Token
  | [] => []
  | .text s :: rest => textTokens s ++ tokens w rest
  | .value v :: rest => w v ++ tokens w rest

@[simp] theorem tokens_append (w : Value → List Token) (ps qs : List Piece) :
    tokens w (ps ++ qs) = tokens w ps ++ tokens w qs := by
  induction ps with
  | nil => rfl
  | cons p rest ih => cases p <;> simp only [List.cons_append, tokens, ih, List.append_assoc]

variable {d : Dialect} {params : List Value} {ps : List Piece}

theorem tokens_text {s : String} (met : Nat) (hs : s.toList.all isStatementChar = true)
    (ls : List Lexeme) : Sql.tokens params met (lexText s ++ ls) =
      textTokens s ++ Sql.tokens params met ls :=
  tokens_append_free params met (lex_free (plains_free hs)) ls

/-- Inline text reads as the tokens of its pieces, whatever the parameters. -/
theorem tokens_inline (hw : Within isStatementChar ps) (met i : Nat) :
    Sql.tokens params met (lexemesWith (fun _ v => v.marks d) i ps) = tokens (inlineTokens d) ps := by
  induction ps generalizing i with
  | nil => rfl
  | cons p rest ih =>
    cases p with
    | text s =>
      obtain ⟨hs, hw⟩ := within_text.mp hw
      rw [lexemesWith, tokens_text met hs, ih hw]
      rfl
    | value v =>
      rw [lexemesWith, tokens_append_free params met (lex_free (marks_free d v)),
        ih (within_value.mp hw)]
      rfl

/-- Bound text, the first of its placeholders at place `i`, reads as the tokens of its pieces. -/
theorem tokens_bound (hd : d ∈ Dialect.all) (hw : Within isStatementChar ps) (i : Nat)
    (hparams : params.drop i = values ps) :
    Sql.tokens params i (lexemesWith (fun i _ => Mark.plains (d.placeholder i).toList) i ps) =
      tokens boundTokens ps := by
  induction ps generalizing i with
  | nil => rfl
  | cons p rest ih =>
    cases p with
    | text s =>
      obtain ⟨hs, hw⟩ := within_text.mp hw
      rw [lexemesWith, tokens_text i hs, ih hw i hparams]
      rfl
    | value v =>
      have hv : params[i]? = some v := by
        rw [← List.head?_drop, hparams]
        rfl
      have hrest : params.drop (i + 1) = values rest := by
        rw [← List.tail_drop, hparams]
        rfl
      obtain ⟨l, hl, hasks, htoken⟩ := placeholder_token hd hv
      rw [lexemesWith, hl, List.singleton_append, Sql.tokens, htoken, hasks, if_pos rfl,
        ih (within_value.mp hw) (i + 1) hrest]
      rfl

end Piece

/-! ### Columns -/

/-- A name that reads as a column. -/
structure IsColumn (name : String) : Prop where
  identifier : isIdentifier name = true
  unreserved : keyword? name.toList = none
  noNumeral : numeral? name.toList = none

instance (name : String) : Decidable (IsColumn name) :=
  decidable_of_iff (isIdentifier name = true ∧ keyword? name.toList = none ∧
      numeral? name.toList = none)
    ⟨fun h => ⟨h.1, h.2.1, h.2.2⟩, fun h => ⟨h.identifier, h.unreserved, h.noNumeral⟩⟩

theorem wordToken_column {name : String} (h : IsColumn name) (params : List Value) :
    wordToken params name.toList = .column name := by
  have hi := h.identifier
  rw [isIdentifier, Bool.and_eq_true] at hi
  have hhead : name.toList.head? ≠ some '$' := fun hc =>
    not_mem_of_all hi.2 (by decide) (List.mem_of_mem_head? hc)
  rw [wordToken, if_neg hhead, plainToken, h.unreserved, h.noNumeral, String.ofList_toList]

/-- A column in front of a text that starts with a break. -/
theorem textTokens_column {name t : String} (h : IsColumn name)
    (ht : (Piece.text t).startsApart = true) :
    textTokens (name ++ t) = .column name :: textTokens t := by
  rw [textTokens, lexText_identifier_append h.identifier ht, List.map_cons, Lexeme.token,
    wordToken_column h]
  rfl

end BucketQuery.Sql
