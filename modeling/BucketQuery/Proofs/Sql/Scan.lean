import BucketQuery.Proofs.Calendar.Figures
import BucketQuery.Proofs.Sql.Literal
import BucketQuery.Proofs.Sql.Pieces
import BucketQuery.Proofs.Sql.Written

/-! How a warehouse scans a text for literals.

A quote opens a literal, and the next quote closes it unless a second one follows, which stands for
one quote inside; in one dialect a backslash inside a literal takes the next character as it is.
`scan` reads a text by these rules alone and knows nothing of how texts are written. Main statement,
`scan_inlineText`: scanning the inline text of any jointed pieces finds their values where they
were put, each literal with the content of its value, and the fixed text between them. -/
namespace BucketQuery.Sql

/-- What a scan finds: a character outside literals, or a literal with its content. -/
inductive Mark where
  | plain (c : Char)
  | literal (content : List Char)
deriving DecidableEq

/-- A backslash inside a literal escapes the character behind it. -/
def Dialect.escapesByBackslash (d : Dialect) : Bool := d.name == "mysql"

/-- Where a scan stands; inside a literal it has read some of the content. -/
inductive Place where
  | outside
  | inside (content : List Char)
  /-- Behind a quote, which is the first of two or closes the literal. -/
  | quoted (content : List Char)
  /-- Behind a backslash. -/
  | escaped (content : List Char)

/-- Scans a text from a place on. A text that ends inside a literal has no marks. -/
def scan (backslash : Bool) : Place → List Char → Option (List Mark)
  | .outside, [] => some []
  | .outside, c :: rest =>
    if c = '\'' then scan backslash (.inside []) rest
    else (scan backslash .outside rest).map (.plain c :: ·)
  | .inside _, [] => none
  | .inside content, c :: rest =>
    if c = '\'' then scan backslash (.quoted content) rest
    else if backslash && c == '\\' then scan backslash (.escaped content) rest
    else scan backslash (.inside (content ++ [c])) rest
  | .quoted content, [] => some [.literal content]
  | .quoted content, c :: rest =>
    if c = '\'' then scan backslash (.inside (content ++ [c])) rest
    else (scan backslash .outside rest).map (.literal content :: .plain c :: ·)
  | .escaped _, [] => none
  | .escaped content, c :: rest => scan backslash (.inside (content ++ [c])) rest

/-- Scans a whole text, in which literals in single quotes are all that is taken for one. That is all there is
in a text that is generated; text of a user's making may have other quotes, and comments, in it. -/
def Dialect.scan (d : Dialect) (text : String) : Option (List Mark) :=
  Sql.scan d.escapesByBackslash .outside text.toList

namespace Mark

def plains (cs : List Char) : List Mark := cs.map .plain

theorem plain_mem_plains {c : Char} {cs : List Char} : .plain c ∈ plains cs ↔ c ∈ cs := by
  simp [plains]

/-- The contents of the literals. -/
def contents : List Mark → List String
  | [] => []
  | .plain _ :: rest => contents rest
  | .literal content :: rest => String.ofList content :: contents rest

/-- Every minus sign outside literals stands in front of a digit. -/
def MinusLeads : List Mark → Prop
  | [] => True
  | m :: rest =>
    (m = .plain '-' → ∃ c later, rest = .plain c :: later ∧ c.isDigit = true) ∧ MinusLeads rest

end Mark

section Scanning
variable (backslash : Bool)

theorem scan_plain {cs : List Char} (rest : List Char) (h : '\'' ∉ cs) :
    scan backslash .outside (cs ++ rest) =
      (scan backslash .outside rest).map (Mark.plains cs ++ ·) := by
  induction cs with
  | nil => simp [Mark.plains]
  | cons c cs ih =>
    rw [List.mem_cons, not_or] at h
    rw [List.cons_append, scan, if_neg (Ne.symm h.1), ih h.2, Option.map_map]
    rfl

/-- A quote that is not doubled closes a literal. -/
theorem scan_quoted (content : List Char) {rest : List Char} (h : rest.head? ≠ some '\'') :
    scan backslash (.quoted content) rest =
      (scan backslash .outside rest).map (.literal content :: ·) := by
  cases rest with
  | nil => rfl
  | cons c rest =>
    have hc : c ≠ '\'' := fun h' => h (by rw [h', List.head?_cons])
    rw [scan, if_neg hc, scan, if_neg hc, Option.map_map]
    rfl

end Scanning

/-! ### Literals -/

variable {d : Dialect}

/-- Characters that no dialect escapes. -/
def unescaped (c : Char) : Bool := c != '\'' && c != '\\'

theorem escapeChar_of_unescaped (hd : d ∈ Dialect.all) {c : Char} (h : unescaped c = true) :
    d.escapeChar c = [c] := by
  rw [unescaped, Bool.and_eq_true, bne_iff_ne, bne_iff_ne] at h
  have hq : Dialect.doubleQuote c = [c] := if_neg h.1
  refine forall_dialects (P := fun d => d.escapeChar c = [c]) hq ?_ hq hd
  show (if c = '\\' then ['\\', '\\'] else Dialect.doubleQuote c) = [c]
  rw [if_neg h.2, hq]

/-- Inside a literal, the written form of a character reads as the character. -/
theorem scan_escapeChar (hd : d ∈ Dialect.all) (c : Char) (content rest : List Char) :
    scan d.escapesByBackslash (.inside content) (d.escapeChar c ++ rest) =
      scan d.escapesByBackslash (.inside (content ++ [c])) rest := by
  by_cases hq : c = '\''
  · subst hq
    exact forall_dialects (P := fun d => scan d.escapesByBackslash (.inside content)
      (d.escapeChar '\'' ++ rest) = scan d.escapesByBackslash (.inside (content ++ ['\''])) rest)
      rfl rfl rfl hd
  · by_cases hb : c = '\\'
    · subst hb
      exact forall_dialects (P := fun d => scan d.escapesByBackslash (.inside content)
        (d.escapeChar '\\' ++ rest) = scan d.escapesByBackslash (.inside (content ++ ['\\'])) rest)
        rfl rfl rfl hd
    · rw [escapeChar_of_unescaped hd (by simp [unescaped, hq, hb]), List.singleton_append, scan,
        if_neg hq, if_neg (by simp [hb])]

theorem scan_escaped (hd : d ∈ Dialect.all) (s content rest : List Char) :
    scan d.escapesByBackslash (.inside content) (s.flatMap d.escapeChar ++ rest) =
      scan d.escapesByBackslash (.inside (content ++ s)) rest := by
  induction s generalizing content with
  | nil => rw [List.flatMap_nil, List.nil_append, List.append_nil]
  | cons c s ih =>
    rw [List.flatMap_cons, List.append_assoc, scan_escapeChar hd, ih, List.append_assoc,
      List.singleton_append]

/-- A literal reads as its content, if the text goes on with something other than a quote. -/
theorem scan_literal (hd : d ∈ Dialect.all) (s : List Char) {rest : List Char}
    (h : rest.head? ≠ some '\'') :
    scan d.escapesByBackslash .outside ('\'' :: (s.flatMap d.escapeChar ++ '\'' :: rest)) =
      (scan d.escapesByBackslash .outside rest).map (.literal s :: ·) := by
  rw [scan, if_pos rfl, scan_escaped hd, List.nil_append, scan, if_pos rfl, scan_quoted _ _ h]

theorem flatMap_escapeChar (hd : d ∈ Dialect.all) {s : List Char} (h : s.all unescaped = true) :
    s.flatMap d.escapeChar = s := by
  induction s with
  | nil => rfl
  | cons c s ih =>
    rw [List.all_cons, Bool.and_eq_true] at h
    rw [List.flatMap_cons, escapeChar_of_unescaped hd h.1, ih h.2, List.singleton_append]

theorem unescaped_of_isDigit {c : Char} (h : c.isDigit = true) : unescaped c = true := by
  rw [unescaped, Bool.and_eq_true, bne_iff_ne, bne_iff_ne]
  constructor
  · rintro rfl
    exact absurd h (by decide)
  · rintro rfl
    exact absurd h (by decide)

/-- The text of an instant needs no escapes. -/
theorem instant_unescaped (t : Calendar.Instant) : t.text.toList.all unescaped = true :=
  List.all_eq_true.mpr (t.text_forall (fun _ => unescaped_of_isDigit) (List.all_eq_true.mp (by decide)))

theorem literal_of_content (hd : d ∈ Dialect.all) {v : Value} {s : String}
    (h : v.content? = some s) :
    (d.literal v).toList = '\'' :: (s.toList.flatMap d.escapeChar ++ ['\'']) := by
  cases v with
  | text s =>
    cases h
    simp [Dialect.literal, Dialect.escape]
  | timestamp t =>
    cases h
    rw [flatMap_escapeChar hd (instant_unescaped t)]
    simp [Dialect.literal]
  | _ => cases h

/-- Identifier characters, or a minus sign with a number behind it. -/
def Bare (cs : List Char) : Prop :=
  ∃ body, body.all isIdentifierChar = true ∧
    (cs = body ∨ cs = '-' :: body ∧ ∃ c rest, body = c :: rest ∧ c.isDigit = true)

/-- What a value without content is written as. -/
theorem literal_bare {v : Value} (h : v.content? = none) : Bare (d.literal v).toList := by
  rcases literal_spells d h with ⟨hnull, _⟩ | ⟨negative, body, x, htext, hbody, _⟩
  · rw [hnull]
    exact ⟨_, by decide, .inl rfl⟩
  · rw [htext]
    cases negative
    · exact ⟨body, hbody.chars, .inl rfl⟩
    · exact ⟨body, hbody.chars, .inr ⟨rfl, hbody.leads⟩⟩

/-- What a scan finds where a value was written inline. -/
def Value.marks (d : Dialect) (v : Value) : List Mark :=
  match v.content? with
  | some s => [.literal s.toList]
  | none => Mark.plains (d.literal v).toList

theorem scan_value (hd : d ∈ Dialect.all) (v : Value) {rest : List Char}
    (h : rest.head? ≠ some '\'') :
    scan d.escapesByBackslash .outside ((d.literal v).toList ++ rest) =
      (scan d.escapesByBackslash .outside rest).map (v.marks d ++ ·) := by
  unfold Value.marks
  cases hc : v.content? with
  | some s =>
    rw [literal_of_content hd hc, List.cons_append, List.append_assoc, List.singleton_append]
    exact scan_literal hd s.toList h
  | none =>
    apply scan_plain
    obtain ⟨body, hbody, hcs⟩ := literal_bare (d := d) hc
    have hquote : '\'' ∉ body := not_mem_of_all hbody (by decide)
    rcases hcs with hcs | ⟨hcs, _⟩
    · rwa [hcs]
    · rw [hcs, List.mem_cons, not_or]
      exact ⟨by decide, hquote⟩

/-! ### Pieces -/

namespace Piece

/-- What a scan finds where pieces were written inline. -/
def inlineMarks (d : Dialect) : List Piece → List Mark
  | [] => []
  | .text s :: rest => Mark.plains s.toList ++ inlineMarks d rest
  | .value v :: rest => v.marks d ++ inlineMarks d rest

/-- Behind a value there is no quote. -/
theorem inlineText_head {v : Value} {ps : List Piece} (h : Jointed (.value v :: ps)) :
    (inlineText d ps).toList.head? ≠ some '\'' := by
  cases ps with
  | nil => simp [inlineText]
  | cons p rest =>
    have hp := (List.isChain_cons_cons.mp h).1
    cases p with
    | value w => rcases hp with hp | hp <;> cases hp
    | text s =>
      rcases hp with hp | hp
      · cases hp
      · rw [startsApart] at hp
        cases hs : s.toList with
        | nil =>
          rw [hs] at hp
          cases hp
        | cons c cs =>
          rw [hs, List.head?_cons, Option.any_some] at hp
          rw [inlineText, String.toList_append, hs, List.cons_append, List.head?_cons]
          intro hc
          cases hc
          exact absurd hp (by decide)

/-- Inline text scans to the marks of its pieces. -/
theorem scan_inlineText (hd : d ∈ Dialect.all) {ps : List Piece} (hj : Jointed ps)
    (hw : Within isStatementChar ps) : d.scan (inlineText d ps) = some (inlineMarks d ps) := by
  unfold Dialect.scan
  induction ps with
  | nil => rfl
  | cons p rest ih =>
    have hrest : Jointed rest := (List.isChain_cons.mp hj).2
    cases p with
    | text s =>
      obtain ⟨hs, hw⟩ := within_text.mp hw
      have hquote : '\'' ∉ s.toList := not_mem_of_all hs (by decide)
      rw [inlineText, String.toList_append, scan_plain _ _ hquote, ih hrest hw]
      rfl
    | value v =>
      rw [inlineText, String.toList_append, scan_value hd v (inlineText_head hj),
        ih hrest (within_value.mp hw)]
      rfl

end Piece

/-! ### Bound text -/

/-- The characters of bound text: ASCII letters and digits, underscores and dots, blanks, the
punctuation of statements, and the two marks of placeholders. -/
def isBoundChar (c : Char) : Bool := isStatementChar c || c == '?' || c == '$'

theorem placeholder_chars (hd : d ∈ Dialect.all) (i : Nat) :
    (d.placeholder i).toList.all isBoundChar = true := by
  have hmark : "?".toList.all isBoundChar = true := by decide
  refine forall_dialects (P := fun d => (d.placeholder i).toList.all isBoundChar = true)
    hmark hmark ?_ hd
  have hdollar : "$".toList.all isBoundChar = true := by decide
  show ("$" ++ (i + 1).repr).toList.all isBoundChar = true
  rw [String.toList_append, List.all_append, Nat.toList_repr, hdollar, Bool.true_and, List.all_eq_true]
  intro c hc
  have hdigit : c.isDigit = true := Nat.isDigit_of_mem_toDigits (by decide) (by decide) hc
  rw [isBoundChar, isStatementChar, identifierChar_of_isDigit hdigit]
  rfl

namespace Piece

theorem boundText_chars (hd : d ∈ Dialect.all) (i : Nat) {ps : List Piece}
    (h : Within isStatementChar ps) : (boundText d i ps).toList.all isBoundChar = true := by
  induction ps generalizing i with
  | nil => rfl
  | cons p rest ih =>
    cases p with
    | text s =>
      obtain ⟨hs, hrest⟩ := within_text.mp h
      have htext : s.toList.all isBoundChar = true :=
        all_of_all (fun c hc => by rw [isBoundChar, hc, Bool.true_or, Bool.true_or]) hs
      rw [boundText, String.toList_append, List.all_append, htext, ih i hrest, Bool.and_self]
    | value v =>
      rw [boundText, String.toList_append, List.all_append, placeholder_chars hd,
        ih _ (within_value.mp h), Bool.and_self]

/-- Bound text has no literals. -/
theorem scan_boundText (hd : d ∈ Dialect.all) (i : Nat) {ps : List Piece}
    (h : Within isStatementChar ps) :
    d.scan (boundText d i ps) = some (Mark.plains (boundText d i ps).toList) := by
  have hquote : '\'' ∉ (boundText d i ps).toList := not_mem_of_all (boundText_chars hd i h) (by decide)
  have hscan := scan_plain d.escapesByBackslash [] hquote
  rwa [List.append_nil, scan, Option.map_some, List.append_nil] at hscan

end Piece

end BucketQuery.Sql
