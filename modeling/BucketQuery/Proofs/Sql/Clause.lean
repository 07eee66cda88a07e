import BucketQuery.Proofs.Sql.Read

/-! The WHERE clause of a statement.

`Dialect.predicate?` reads a text as a warehouse does: it scans it for literals, passes over the names
of columns and table, and reads the conditions up to a grouping, an order or the end. Any word is
taken for a name where a name stands, so only the columns that conditions test must not be keywords.
Main statement, `Select.reads`: the text of a statement in either mode, read with its parameters,
means that all its filters hold. -/
namespace BucketQuery.Sql

/-- A column or the star of all columns, where a name stands. -/
def Lexeme.isName : Lexeme → Bool
  | .word _ => true
  | .symbol c => c == '*'
  | .sign _ | .literal _ => false

def Lexeme.isWord (word : String) : Lexeme → Bool
  | .word cs => cs.map Char.toUpper == word.toList
  | .sign _ | .symbol _ | .literal _ => false

/-- What follows names with commas between them. -/
def behindNames? : List Lexeme → Option (List Lexeme)
  | [] => none
  | name :: .symbol ',' :: rest => if name.isName then behindNames? rest else none
  | name :: rest => if name.isName then some rest else none

/-- The WHERE clause, and what follows it. -/
def whereClause? : List Lexeme → Option (List Lexeme)
  | first :: rest =>
    if first.isWord "SELECT" then
      match behindNames? rest with
      | some (second :: .word _ :: third :: rest) =>
        if second.isWord "FROM" && third.isWord "WHERE" then some rest else none
      | _ => none
    else none
  | [] => none

/-- The conditions end here. -/
def endsClause (ts : List Token) : Bool :=
  ts.isEmpty || ts.head? == some (.keyword .group) || ts.head? == some (.keyword .order)

/-- The conditions that the text of a statement puts on rows. -/
def Dialect.predicate? (d : Dialect) (params : List Value) (sql : String) : Option Predicate := do
  let marks ← d.scan sql
  let clause ← whereClause? (lex marks)
  let ts := tokens params 0 clause
  let (p, rest) ← disjunction? (2 * ts.length) ts
  if endsClause rest then some p else none

/-! ### The head -/

theorem lexText_name {name : String} (h : name = "*" ∨ isIdentifier name = true) :
    ∃ l, lexText name = [l] ∧ l.isName = true := by
  rcases h with rfl | h
  · exact ⟨.symbol '*', by decide, rfl⟩
  · exact ⟨_, lexText_identifier h, rfl⟩

theorem behindNames_intercalate {names : List String} (hne : names ≠ [])
    (h : ∀ name ∈ names, name = "*" ∨ isIdentifier name = true) (w : List Char)
    (rest : List Lexeme) :
    behindNames? (lexText (", ".intercalate names) ++ .word w :: rest) = some (.word w :: rest) := by
  induction names with
  | nil => exact absurd rfl hne
  | cons name names ih =>
    rw [List.forall_mem_cons] at h
    obtain ⟨l, hl, hname⟩ := lexText_name h.1
    cases names with
    | nil =>
      rw [String.intercalate_singleton, hl, List.singleton_append, behindNames?, if_pos hname]
      exact fun _ hc => by cases hc
    | cons next names =>
      have hcomma : lexText ", " = [.symbol ','] := by decide
      have htext : lexText (name ++ ", " ++ ", ".intercalate (next :: names)) =
          l :: .symbol ',' :: lexText (", ".intercalate (next :: names)) := by
        rw [String.append_assoc, lexText_append (.inr (Piece.startsApart_append _ (by decide))),
          lexText_append (.inl (by decide)), hl, hcomma]
        rfl
      rw [String.intercalate_cons_cons, htext, List.cons_append, List.cons_append, behindNames?,
        if_pos hname, ih (List.cons_ne_nil _ _) h.2]

namespace Select

/-- The equation that every clause begins with. -/
def firstLexemes : List Lexeme :=
  [.word (Nat.toDigits 10 1), .sign ['='], .word (Nat.toDigits 10 1)]

/-- A statement up to its filters. -/
theorem lexText_head {s : Select} (h : s.Named) :
    lexText ("SELECT " ++ s.projection ++ " FROM " ++ s.table ++ " WHERE 1=1") =
      .word "SELECT".toList :: (lexText s.projection ++ .word "FROM".toList :: .word s.table.toList ::
        .word "WHERE".toList :: firstLexemes) := by
  have hselect : lexText "SELECT " = [.word "SELECT".toList] := by decide
  have hfrom : lexText " FROM " = [.word "FROM".toList] := by decide
  have hwhere : lexText " WHERE 1=1" = .word "WHERE".toList :: firstLexemes := by decide
  rw [lexText_append (.inr (by decide)),
    lexText_append (.inl (Piece.endsApart_append _ (by decide))), lexText_append (.inr (by decide)),
    lexText_append (.inl (by decide)), hselect, hfrom, hwhere, lexText_identifier h.table]
  simp only [List.append_assoc, List.cons_append, List.nil_append]

theorem whereClause_head {s : Select} (h : s.Named) (rest : List Lexeme) :
    whereClause? (lexText ("SELECT " ++ s.projection ++ " FROM " ++ s.table ++ " WHERE 1=1") ++ rest) =
      some (firstLexemes ++ rest) := by
  have hnames (more : List Lexeme) :
      behindNames? (lexText s.projection ++ .word "FROM".toList :: more) =
        some (.word "FROM".toList :: more) := by
    unfold projection
    split
    · have hstar : lexText "*" = [.symbol '*'] := by decide
      rw [hstar]
      rfl
    · rename_i hempty
      exact behindNames_intercalate (by simpa using hempty) h.columns _ _
  have hwords : Lexeme.isWord "SELECT" (.word "SELECT".toList) = true ∧
      Lexeme.isWord "FROM" (.word "FROM".toList) = true ∧
      Lexeme.isWord "WHERE" (.word "WHERE".toList) = true := by decide
  rw [lexText_head h, List.cons_append, List.append_assoc, whereClause?, if_pos hwords.1]
  simp only [List.cons_append, hnames]
  rw [hwords.2.1, hwords.2.2]
  rfl

/-! ### The filters and what follows -/

section Reads
variable {Cell : Type} {w : Cells Cell} {row : Row Cell} {f : Value → List Token} {s : Select}

theorem tokens_wherePieces (filters : List Expr) :
    Piece.tokens f (wherePieces filters) =
      filters.flatMap fun e => .keyword .and :: Piece.tokens f e.pieces := by
  have hand : textTokens " AND " = [.keyword .and] := by decide
  induction filters with
  | nil => rfl
  | cons e filters ih =>
    rw [wherePieces_cons, Piece.tokens, Piece.tokens_append, ih, hand]
    rfl

/-- A list of filters behind the first condition is a run. -/
theorem joinBy_filters (first : List Token) (filters : List Expr) :
    first ++ Piece.tokens f (wherePieces filters) =
      joinBy .and (first :: filters.map fun e => Piece.tokens f e.pieces) := by
  rw [tokens_wherePieces]
  induction filters generalizing first with
  | nil => exact List.append_nil _
  | cons e filters ih =>
    rw [List.flatMap_cons, List.cons_append, List.map_cons, joinBy_cons _ _ (List.cons_ne_nil _ _),
      ← ih]

/-- A piece whose text starts with a keyword that may follow a clause. -/
theorem endsClause_text {first words : String} {k : Keyword} {ts : List Token}
    (hk : k = .group ∨ k = .order) (hapart : (Piece.text first).endsApart = true)
    (hfirst : textTokens first = .keyword k :: ts) (rest : List Piece) :
    endsClause (Piece.tokens f (.text (first ++ words) :: rest)) = true := by
  have htext : textTokens (first ++ words) = .keyword k :: (ts ++ textTokens words) := by
    rw [textTokens, lexText_append (.inl hapart), List.map_append]
    exact congrArg (· ++ textTokens words) hfirst
  rw [Piece.tokens, htext]
  rcases hk with rfl | rfl
  · rfl
  · rfl

theorem tail_endsClause (s : Select) : endsClause (Piece.tokens f s.tail) = true := by
  have hgroup : textTokens " GROUP BY " = [.keyword .group, .column "BY"] := by decide
  have horder : textTokens " ORDER BY " = [.keyword .order, .column "BY"] := by decide
  unfold tail
  cases s.groupBy with
  | some key => exact endsClause_text (.inl rfl) (by decide) hgroup _
  | none =>
    dsimp only
    split
    · rfl
    · exact endsClause_text (.inr rfl) (by decide) horder _

theorem not_connective_of_endsClause {ts : List Token} (h : endsClause ts = true) :
    ts.head? ≠ some (.keyword .and) ∧ ts.head? ≠ some (.keyword .or) := by
  cases ts with
  | nil => exact ⟨by simp, by simp⟩
  | cons t ts =>
    rw [List.head?_cons, Ne, Ne, Option.some.injEq, Option.some.injEq]
    constructor
    · rintro rfl
      cases h
    · rintro rfl
      cases h

theorem map_token_firstLexemes : firstLexemes.map (Lexeme.token [] 0) =
    [.constant (.number (1 : Nat)), .compare .eq, .constant (.number (1 : Nat))] := by
  rw [firstLexemes, List.map_cons, List.map_cons, List.map_singleton, token_numeral]
  rfl

/-- The first condition and the filters behind it: their tokens, and what they mean. -/
def filterUnits (w : Cells Cell) (row : Row Cell) (f : Value → List Token) (filters : List Expr) :
    List (List Token × Truth) :=
  (firstLexemes.map (Lexeme.token [] 0), Truth.true) ::
    filters.map fun e => (Piece.tokens f e.pieces, e.truth w row)

theorem filterUnits_read (hf : Stands f) {filters : List Expr}
    (h : ∀ e ∈ filters, e.Over IsColumn ∧ e.Layered false) :
    ∀ u ∈ filterUnits w row f filters, ReadsUnit w row u.1 u.2 := by
  refine List.forall_mem_cons.mpr ⟨?_, fun u hu => ?_⟩
  · have hfirst : ReadsUnit w row _ _ := reads_equation ((1 : Nat) : Rat) ((1 : Nat) : Rat)
    rw [decide_eq_true rfl] at hfirst
    rw [map_token_firstLexemes]
    exact hfirst
  · obtain ⟨e, he, rfl⟩ := List.mem_map.mp hu
    exact (Expr.reads hf (h e he).1).1 (h e he).2

theorem filterUnits_tokens (filters : List Expr) :
    (filterUnits w row f filters).map Prod.fst = firstLexemes.map (Lexeme.token [] 0) ::
      filters.map fun e => Piece.tokens f e.pieces := by
  rw [filterUnits, List.map_cons, List.map_map]
  rfl

theorem filterUnits_truth (filters : List Expr) :
    Truth.all ((filterUnits w row f filters).map Prod.snd) =
      Truth.all (filters.map (Expr.truth w row)) := by
  rw [filterUnits, List.map_cons, Truth.all, Truth.true_and, List.map_map]
  rfl

/-- The first condition and the filters behind it read as one run. -/
theorem reads_filters (hf : Stands f) {filters : List Expr}
    (h : ∀ e ∈ filters, e.Over IsColumn ∧ e.Layered false) :
    ReadsDisjunction w row
      (joinBy .and (firstLexemes.map (Lexeme.token [] 0) ::
        filters.map fun e => Piece.tokens f e.pieces))
      (Truth.all (filters.map (Expr.truth w row))) := by
  have hrun : ReadsDisjunction w row (joinBy .and ((filterUnits w row f filters).map Prod.fst))
      (Truth.all ((filterUnits w row f filters).map Prod.snd)) :=
    (reads_conjunction _ (List.cons_ne_nil _ _) (filterUnits_read hf h)).alone
  rwa [filterUnits_tokens, filterUnits_truth] at hrun

/-- What is read from a scan whose values read as operands. -/
theorem reads_of_scan {d : Dialect} {sql : String} {params : List Value}
    {fill : Nat → Value → List Mark} (hnamed : s.Named)
    (hfilters : ∀ e ∈ s.filters, e.Over IsColumn ∧ e.Layered false) (hf : Stands f)
    (hscan : d.scan sql = some (Piece.marksWith fill 0 s.pieces))
    (htokens : Sql.tokens params 0 (Piece.lexemesWith fill 0 (wherePieces s.filters ++ s.tail)) =
      Piece.tokens f (wherePieces s.filters ++ s.tail)) :
    (d.predicate? params sql).map (Predicate.truth w row) =
      some (Truth.all (s.filters.map (Expr.truth w row))) := by
  have hlex : lex (Piece.marksWith fill 0 s.pieces) =
      lexText ("SELECT " ++ s.projection ++ " FROM " ++ s.table ++ " WHERE 1=1") ++
        Piece.lexemesWith fill 0 (wherePieces s.filters ++ s.tail) :=
    Piece.lex_marksWith fill 0 s.pieces_jointed
  have hfree : ∀ l ∈ firstLexemes, l.asks = false := by decide
  -- The tokens of the clause: one run, and what ends it.
  obtain ⟨run, hrun⟩ : ∃ run, run = joinBy .and (firstLexemes.map (Lexeme.token [] 0) ::
    s.filters.map fun e => Piece.tokens f e.pieces) := ⟨_, rfl⟩
  have hclause : Sql.tokens params 0
      (firstLexemes ++ Piece.lexemesWith fill 0 (wherePieces s.filters ++ s.tail)) =
      run ++ Piece.tokens f s.tail := by
    rw [tokens_append_free params 0 hfree, htokens, Piece.tokens_append, ← List.append_assoc,
      joinBy_filters, hrun]
  have hends := tail_endsClause (f := f) s
  obtain ⟨hand, hor⟩ := not_connective_of_endsClause hends
  have hreads : ReadsDisjunction w row run _ := hrun ▸ reads_filters hf hfilters
  obtain ⟨p, hp, ht⟩ := hreads (2 * (run ++ Piece.tokens f s.tail).length) (Piece.tokens f s.tail)
    (by rw [List.length_append]; omega) hand hor
  have hpredicate : d.predicate? params sql = some p := by
    rw [Dialect.predicate?, hscan]
    simp only [Option.bind_eq_bind, Option.bind_some, hlex, whereClause_head hnamed, hclause, hp, hends]
    rfl
  rw [hpredicate, Option.map_some, ht]

/-- **The clause reads back.** The text of a statement, in either mode and read with its parameters,
puts all its filters on a row and nothing else. -/
theorem reads {d : Dialect} (hd : d ∈ Dialect.all) (mode : LiteralMode) (hnamed : s.Named)
    (hfilters : ∀ e ∈ s.filters, e.Over IsColumn ∧ e.Layered false) :
    (d.predicate? (s.render d mode).params (s.render d mode).sql).map (Predicate.truth w row) =
      some (Truth.all (s.filters.map (Expr.truth w row))) := by
  have hwithin := pieces_within hnamed
  have hrest := (Piece.within_text.mp hwithin).2
  rw [s.render_eq]
  cases mode with
  | bound =>
    apply reads_of_scan hnamed hfilters boundTokens_stands
    · rw [← Piece.boundMarks_marksWith]
      exact Piece.scan_boundText hd 0 hwithin
    · exact Piece.tokens_bound hd hrest 0 rfl
  | inline =>
    apply reads_of_scan hnamed hfilters (inlineTokens_stands d)
    · rw [← Piece.inlineMarks_marksWith]
      exact Piece.scan_inlineText hd s.pieces_jointed hwithin
    · exact Piece.tokens_inline hrest 0 0

end Reads

end Select

end BucketQuery.Sql
