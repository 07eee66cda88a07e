import BucketQuery.Proofs.Sql.Scan

/-! The words and signs of a text.

Outside of literals, letters, digits, underscores, dots and dollar signs run together to words, and
the characters of comparisons to signs; blanks end both, and any other character stands alone. A
reader keeps the run it is in and takes one mark after the other. Main statement, `lex_marksWith`:
jointed pieces are read one by one, whatever is put in the place of their values. -/
namespace BucketQuery.Sql

inductive Lexeme where
  | word (cs : List Char)
  | sign (cs : List Char)
  | symbol (c : Char)
  | literal (content : List Char)
deriving DecidableEq

def isWordChar (c : Char) : Bool := isIdentifierChar c || c == '$'

def isSignChar (c : Char) : Bool := c == '=' || c == '<' || c == '>' || c == '!'

/-- The run that a reader is in. -/
inductive Run where
  | none
  | word (cs : List Char)
  | sign (cs : List Char)

namespace Run

def flush : Run → List Lexeme
  | none => []
  | word cs => [.word cs]
  | sign cs => [.sign cs]

/-- The run with one more character, if that belongs to it. -/
def extend? : Run → Char → Option Run
  | none, _ => .none
  | word cs, c => if isWordChar c then some (word (cs ++ [c])) else .none
  | sign cs, c => if isSignChar c then some (sign (cs ++ [c])) else .none

/-- What a character begins: a lexeme of its own, or a run. -/
def start (c : Char) : List Lexeme × Run :=
  if c == ' ' then ([], none)
  else if isWordChar c then ([], word [c])
  else if isSignChar c then ([], sign [c])
  else ([.symbol c], none)

/-- The lexemes that end at a mark, and the run behind it. -/
def step (r : Run) : Mark → List Lexeme × Run
  | .literal content => (r.flush ++ [.literal content], none)
  | .plain c =>
    match r.extend? c with
    | some longer => ([], longer)
    | .none => (r.flush ++ (start c).1, (start c).2)

end Run

/-- Reads marks from a run on. -/
def lexFrom (r : Run) : List Mark → List Lexeme
  | [] => r.flush
  | m :: rest => (r.step m).1 ++ lexFrom (r.step m).2 rest

def lex : List Mark → List Lexeme := lexFrom .none

/-- The lexemes of a text without literals. -/
def lexText (s : String) : List Lexeme := lex (Mark.plains s.toList)

/-! ### Where runs end -/

/-- No run goes on over a literal or a break. -/
def Mark.apart : Mark → Bool
  | .literal _ => true
  | .plain c => isBreak c

theorem step_apart (r : Run) {m : Mark} (h : m.apart = true) :
    r.step m = (r.flush ++ (Run.none.step m).1, .none) := by
  cases m with
  | literal content => rfl
  | plain c =>
    have hc : c = ' ' ∨ c = ',' ∨ c = '(' ∨ c = ')' := by
      simpa [Mark.apart, isBreak, or_assoc] using h
    rcases hc with rfl | rfl | rfl | rfl <;> cases r <;> rfl

theorem lexFrom_apart (r : Run) {ms : List Mark} (h : ms.head?.all Mark.apart = true) :
    lexFrom r ms = r.flush ++ lex ms := by
  cases ms with
  | nil => exact (List.append_nil _).symm
  | cons m rest =>
    have hm : m.apart = true := h
    rw [lex, lexFrom, lexFrom, step_apart r hm, step_apart .none hm, List.append_assoc]

/-- Marks may be read in two parts if no run goes on from one into the other. -/
theorem lexFrom_append (r : Run) {as bs : List Mark}
    (h : as.getLast?.any Mark.apart = true ∨ bs.head?.all Mark.apart = true) :
    lexFrom r (as ++ bs) = lexFrom r as ++ lex bs := by
  induction as generalizing r with
  | nil =>
    rcases h with h | h
    · cases h
    · exact lexFrom_apart r h
  | cons m as ih =>
    rw [List.cons_append, lexFrom, lexFrom, List.append_assoc]
    congr 1
    cases as with
    | nil =>
      rcases h with h | h
      · have hm : m.apart = true := h
        rw [step_apart r hm]
        rfl
      · exact ih _ (.inr h)
    | cons m' as =>
      rw [List.getLast?_cons_cons] at h
      exact ih _ h

theorem lex_append {as bs : List Mark}
    (h : as.getLast?.any Mark.apart = true ∨ bs.head?.all Mark.apart = true) :
    lex (as ++ bs) = lex as ++ lex bs :=
  lexFrom_append .none h

theorem plains_endApart {s : String} (h : (Piece.text s).endsApart = true) :
    (Mark.plains s.toList).getLast?.any Mark.apart = true := by
  rw [Piece.endsApart] at h
  rw [Mark.plains, List.getLast?_map, Option.any_map]
  exact h

theorem plains_startApart {s : String} (h : (Piece.text s).startsApart = true) :
    (Mark.plains s.toList).head?.any Mark.apart = true := by
  rw [Piece.startsApart] at h
  rw [Mark.plains, List.head?_map, Option.any_map]
  exact h

/-- A text may be cut where a break stands. -/
theorem lexText_append {s t : String}
    (h : (Piece.text s).endsApart = true ∨ (Piece.text t).startsApart = true) :
    lexText (s ++ t) = lexText s ++ lexText t := by
  unfold lexText
  rw [String.toList_append, Mark.plains, List.map_append]
  apply lex_append
  rcases h with h | h
  · exact .inl (plains_endApart h)
  · refine .inr ?_
    have := plains_startApart h
    cases ht : t.toList with
    | nil => rfl
    | cons c cs =>
      rw [ht] at this
      exact this

/-! ### Words -/

theorem lexFrom_word (met : List Char) {cs : List Char} (h : cs.all isWordChar = true) :
    lexFrom (.word met) (Mark.plains cs) = [.word (met ++ cs)] := by
  induction cs generalizing met with
  | nil =>
    rw [List.append_nil]
    rfl
  | cons c cs ih =>
    rw [List.all_cons, Bool.and_eq_true] at h
    have hstep : (Run.word met).step (.plain c) = ([], .word (met ++ [c])) := by
      simp only [Run.step, Run.extend?, if_pos h.1]
    show ((Run.word met).step (.plain c)).1 ++ lexFrom _ (Mark.plains cs) = _
    rw [hstep, ih _ h.2, List.append_assoc]
    rfl

theorem blank_not_wordChar {c : Char} (h : isWordChar c = true) : (c == ' ') = false := by
  rw [beq_eq_false_iff_ne]
  rintro rfl
  exact absurd h (by decide)

theorem lex_word {cs : List Char} (hne : cs ≠ []) (h : cs.all isWordChar = true) :
    lex (Mark.plains cs) = [.word cs] := by
  cases cs with
  | nil => exact absurd rfl hne
  | cons c cs =>
    rw [List.all_cons, Bool.and_eq_true] at h
    have hstart : Run.start c = ([], .word [c]) := by
      rw [Run.start, blank_not_wordChar h.1, if_neg Bool.false_ne_true, if_pos h.1]
    show (Run.none.step (.plain c)).1 ++ lexFrom (Run.none.step (.plain c)).2 (Mark.plains cs) = _
    have hstep : Run.none.step (.plain c) = ([], .word [c]) := by
      simp only [Run.step, Run.extend?, hstart, Run.flush, List.append_nil]
    rw [hstep, lexFrom_word _ h.2]
    rfl

theorem wordChars_of_identifierChars {cs : List Char} (h : cs.all isIdentifierChar = true) :
    cs.all isWordChar = true :=
  all_of_all (fun c hc => by rw [isWordChar, hc, Bool.true_or]) h

theorem lexText_identifier {name : String} (h : isIdentifier name = true) :
    lexText name = [.word name.toList] := by
  rw [isIdentifier, Bool.and_eq_true] at h
  exact lex_word (by simpa using h.1) (wordChars_of_identifierChars h.2)

/-- An identifier in front of a text that starts with a break is a word of its own. -/
theorem lexText_identifier_append {name t : String} (h : isIdentifier name = true)
    (ht : (Piece.text t).startsApart = true) :
    lexText (name ++ t) = .word name.toList :: lexText t := by
  rw [lexText_append (.inr ht), lexText_identifier h]
  rfl

/-! ### Pieces -/

namespace Piece

/-- The marks of pieces, where `fill` gives those of a value at its place. -/
def marksWith (fill : Nat → Value → List Mark) : Nat → List Piece → List Mark
  | _, [] => []
  | i, .text s :: rest => Mark.plains s.toList ++ marksWith fill i rest
  | i, .value v :: rest => fill i v ++ marksWith fill (i + 1) rest

def lexemesWith (fill : Nat → Value → List Mark) : Nat → List Piece → List Lexeme
  | _, [] => []
  | i, .text s :: rest => lexText s ++ lexemesWith fill i rest
  | i, .value v :: rest => lex (fill i v) ++ lexemesWith fill (i + 1) rest

theorem inlineMarks_marksWith (d : Dialect) (i : Nat) (ps : List Piece) :
    inlineMarks d ps = marksWith (fun _ v => v.marks d) i ps := by
  induction ps generalizing i with
  | nil => rfl
  | cons p rest ih =>
    cases p with
    | text s => rw [inlineMarks, marksWith, ih i]
    | value v => rw [inlineMarks, marksWith, ih (i + 1)]

theorem boundMarks_marksWith (d : Dialect) (i : Nat) (ps : List Piece) :
    Mark.plains (boundText d i ps).toList =
      marksWith (fun i _ => Mark.plains (d.placeholder i).toList) i ps := by
  induction ps generalizing i with
  | nil => rfl
  | cons p rest ih =>
    have happend (s t : String) : Mark.plains (s ++ t).toList =
        Mark.plains s.toList ++ Mark.plains t.toList := by
      rw [String.toList_append, Mark.plains, List.map_append]
      rfl
    cases p with
    | text s => rw [boundText, marksWith, happend, ih i]
    | value v => rw [boundText, marksWith, happend, ih (i + 1)]

theorem lex_marksWith (fill : Nat → Value → List Mark) (i : Nat) {ps : List Piece}
    (h : Jointed ps) : lex (marksWith fill i ps) = lexemesWith fill i ps := by
  induction ps generalizing i with
  | nil => rfl
  | cons p rest ih =>
    have hrest : Jointed rest := (List.isChain_cons.mp h).2
    -- The next piece starts apart, or this one is a text that ends apart.
    have hmeet (as : List Mark) (k : Nat)
        (has : p.endsApart = true → as.getLast?.any Mark.apart = true) :
        as.getLast?.any Mark.apart = true ∨ (marksWith fill k rest).head?.all Mark.apart = true := by
      cases rest with
      | nil => exact .inr rfl
      | cons q rest =>
        rcases (List.isChain_cons_cons.mp h).1 with hp | hq
        · exact .inl (has hp)
        · cases q with
          | value w => cases hq
          | text t =>
            have hhead := plains_startApart hq
            rw [marksWith]
            cases ht : t.toList with
            | nil =>
              rw [ht] at hhead
              cases hhead
            | cons c cs =>
              rw [ht] at hhead
              exact .inr hhead
    cases p with
    | text s =>
      rw [marksWith, lex_append (hmeet _ i plains_endApart), ih i hrest]
      rfl
    | value v =>
      rw [marksWith, lex_append (hmeet _ (i + 1) fun hp => by cases hp), ih (i + 1) hrest]
      rfl

end Piece

end BucketQuery.Sql
