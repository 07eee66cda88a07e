import BucketQuery.Proofs.Sql.Parser
import BucketQuery.Proofs.Text.Blank

/-! Reading expressions back.

An expression that stands beside others must not be a chain, or its connectives would mix with
theirs; `Layered` is that invariant, all the way down. Main statement, `Expr.reads`: the text of a
layered expression reads, as one unit if it may stand beside others, as a predicate that means what
the expression means. A chain is written without parentheses, so its text is the text of its runs
with OR between them, and theirs that of their items with AND between them. -/
namespace BucketQuery.Sql

open BucketQuery.Filter (Comparison Connective)

/-! ### Values -/

/-- The tokens of a value read as an operand that stands for it. -/
def Stands (f : Value → List Token) : Prop :=
  ∀ v rest, operand? (f v ++ rest) = some (.constant v.operand, rest)

theorem boundTokens_stands : Stands boundTokens := fun _ _ => rfl

/-- A word that starts with a digit is no keyword. -/
theorem keyword_of_digit {c : Char} (cs : List Char) (h : c.isDigit = true) :
    keyword? (c :: cs) = none := by
  have hkeys : ∀ entry ∈ keywords, entry.1.head?.all (fun k => !k.isDigit) = true := by decide
  rw [keyword?, List.lookup_eq_none_iff]
  intro entry hentry
  rw [bne_iff_ne]
  intro heq
  have := hkeys entry hentry
  rw [← heq, List.map_cons, List.head?_cons, Option.all_some, Text.toUpper_of_digit h, h] at this
  cases this

theorem wordToken_numeral {body : List Char} {x : Rat} (h : Numeral body x) (params : List Value) :
    wordToken params body = .constant (.number x) := by
  obtain ⟨c, cs, rfl, hc⟩ := h.leads
  have hhead : (c :: cs).head? ≠ some '$' := by
    rw [List.head?_cons, Ne, Option.some.injEq]
    rintro rfl
    cases hc
  rw [wordToken, if_neg hhead, plainToken, keyword_of_digit cs hc, h.value]

theorem lex_numeral {body : List Char} {x : Rat} (h : Numeral body x) :
    lex (Mark.plains body) = [.word body] := by
  obtain ⟨c, cs, rfl, _⟩ := h.leads
  exact lex_word (List.cons_ne_nil _ _) (wordChars_of_identifierChars h.chars)

theorem inlineTokens_stands (d : Dialect) : Stands (inlineTokens d) := by
  intro v rest
  unfold inlineTokens Value.marks
  cases hc : v.content? with
  | some s =>
    rw [Value.operand_of_content hc]
    show operand? (.constant (.text (String.ofList s.toList)) :: rest) = _
    rw [String.ofList_toList]
    rfl
  | none =>
    rcases literal_spells d hc with ⟨htext, hv⟩ | ⟨negative, body, x, htext, hbody, hv⟩
    · have hnull : (lex (Mark.plains "NULL".toList)).map (Lexeme.token [] 0) = [.keyword .null] := by
        decide
      rw [hv]
      dsimp only
      rw [htext, hnull]
      rfl
    · have hword := wordToken_numeral hbody []
      rw [hv]
      dsimp only
      rw [htext]
      cases negative with
      | false =>
        rw [if_neg Bool.false_ne_true, List.nil_append, lex_numeral hbody]
        show operand? (wordToken [] body :: rest) = _
        rw [hword]
        rfl
      | true =>
        have hlex : lex (Mark.plains ('-' :: body)) = .symbol '-' :: lex (Mark.plains body) := rfl
        rw [if_pos rfl, List.singleton_append, hlex, lex_numeral hbody]
        show operand? (.minus :: wordToken [] body :: rest) = _
        rw [hword]
        rfl

/-! ### Tests -/

section Tests
variable {Cell : Type} {w : Cells Cell} {row : Row Cell} {f : Value → List Token}

/-- A test that starts with a column is a unit. -/
theorem reads_test {column : String} {ts : List Token} {t : Truth} (hpos : ts ≠ [])
    (h : ∀ fuel rest, ts.length ≤ fuel → Takes w row (test? fuel) (.column column :: ts) rest t) :
    ReadsUnit w row (.column column :: ts) t := by
  intro fuel rest hfuel
  have hlen : 0 < ts.length := List.length_pos_iff.mpr hpos
  rw [List.length_cons] at hfuel
  obtain ⟨fuel, rfl⟩ : ∃ n, fuel = n + 1 := ⟨fuel - 1, by omega⟩
  exact h fuel rest (by omega)

theorem tokens_compare {column : String} (h : IsColumn column) (op : Comparison) (v : Value) :
    Piece.tokens f (Expr.compare column op v).pieces = .column column :: .compare op :: f v := by
  have hop : textTokens (" " ++ (op.text ++ " ")) = [.compare op] := by cases op <;> decide
  have hapart : (Piece.text (" " ++ (op.text ++ " "))).startsApart = true := by cases op <;> decide
  rw [Expr.pieces, Piece.tokens, Piece.tokens, Piece.tokens, String.append_assoc, String.append_assoc,
    textTokens_column h hapart, hop, List.append_nil]
  rfl

theorem reads_compare {column : String} (h : IsColumn column) (hf : Stands f) (op : Comparison)
    (v : Value) :
    ReadsUnit w row (Piece.tokens f (Expr.compare column op v).pieces)
      ((Expr.compare column op v).truth w row) := by
  rw [tokens_compare h]
  refine reads_test (List.cons_ne_nil _ _) fun fuel rest _ => ?_
  refine ⟨.compare op (.column column) (.constant v.operand), ?_, rfl⟩
  show (operand? (f v ++ rest) >>= fun read => some (Predicate.compare op (.column column) read.1,
    read.2)) = _
  rw [hf]
  rfl

/-- NOT, if a test is negated. -/
def notTokens (negated : Bool) : List Token := if negated then [.keyword .not] else []

/-- A test by a keyword in front of which NOT may stand. -/
theorem reads_tested {column : String} {k : Keyword} {ts : List Token} {t : Truth}
    (hk : k = .like ∨ k = .between ∨ k = .isIn) (negated : Bool)
    (h : ∀ fuel rest, ts.length ≤ fuel →
      Takes w row (tested? fuel (.column column)) (.keyword k :: ts) rest t) :
    ReadsUnit w row (.column column :: (notTokens negated ++ .keyword k :: ts))
      (negateIf negated t) := by
  refine reads_test (by simp) fun fuel rest hfuel => ?_
  rw [List.length_append, List.length_cons] at hfuel
  obtain ⟨p, hp, ht⟩ := h fuel rest (by omega)
  cases negated with
  | true =>
    refine ⟨.not p, ?_, congrArg Truth.not ht⟩
    show (tested? fuel (.column column) (.keyword k :: ts ++ rest) >>= fun read =>
      some (Predicate.not read.1, read.2)) = _
    rw [hp]
    rfl
  | false =>
    refine ⟨p, ?_, ht⟩
    rcases hk with rfl | rfl | rfl
    · exact hp
    · exact hp
    · exact hp

theorem reads_like {column : String} (h : IsColumn column) (hf : Stands f) (v : Value)
    (negated : Bool) :
    ReadsUnit w row (Piece.tokens f (Expr.like column v negated).pieces)
      ((Expr.like column v negated).truth w row) := by
  have htokens : Piece.tokens f (Expr.like column v negated).pieces =
      .column column :: (notTokens negated ++ .keyword .like :: f v) := by
    have hwords : textTokens (if negated then " NOT LIKE " else " LIKE ") =
        notTokens negated ++ [.keyword .like] := by cases negated <;> decide
    have hapart : (Piece.text (if negated then " NOT LIKE " else " LIKE ")).startsApart = true := by
      cases negated <;> decide
    rw [Expr.pieces, Piece.tokens, Piece.tokens, Piece.tokens, textTokens_column h hapart, hwords,
      List.append_nil, List.cons_append, List.append_assoc]
    rfl
  rw [htokens]
  refine reads_tested (.inl rfl) negated fun fuel rest _ => ?_
  refine ⟨.like (.column column) (.constant v.operand), ?_, rfl⟩
  show (operand? (f v ++ rest) >>= fun read => some (Predicate.like (.column column) read.1,
    read.2)) = _
  rw [hf]
  rfl

theorem reads_between {column : String} (h : IsColumn column) (hf : Stands f) (low high : Value)
    (negated : Bool) :
    ReadsUnit w row (Piece.tokens f (Expr.between column low high negated).pieces)
      ((Expr.between column low high negated).truth w row) := by
  have htokens : Piece.tokens f (Expr.between column low high negated).pieces =
      .column column ::
        (notTokens negated ++ .keyword .between :: (f low ++ .keyword .and :: f high)) := by
    have hwords : textTokens (if negated then " NOT BETWEEN " else " BETWEEN ") =
        notTokens negated ++ [.keyword .between] := by cases negated <;> decide
    have hapart :
        (Piece.text (if negated then " NOT BETWEEN " else " BETWEEN ")).startsApart = true := by
      cases negated <;> decide
    have hand : textTokens " AND " = [.keyword .and] := by decide
    simp only [Expr.pieces, Piece.tokens, textTokens_column h hapart, hwords, hand, List.append_nil,
      List.cons_append, List.append_assoc, List.nil_append]
  rw [htokens]
  refine reads_tested (.inr (.inl rfl)) negated fun fuel rest _ => ?_
  refine ⟨.between (.column column) (.constant low.operand) (.constant high.operand), ?_, rfl⟩
  rw [List.cons_append, List.append_assoc, List.cons_append, tested?, hf]
  show (operand? (f high ++ rest) >>= fun read => some (Predicate.between (.column column)
    (.constant low.operand) read.1, read.2)) = _
  rw [hf]
  rfl

theorem reads_isNull {column : String} (h : IsColumn column) (negated : Bool) :
    ReadsUnit w row (Piece.tokens f (Expr.isNull column negated).pieces)
      ((Expr.isNull column negated).truth w row) := by
  have htokens : Piece.tokens f (Expr.isNull column negated).pieces =
      .column column :: .keyword .is :: (notTokens negated ++ [.keyword .null]) := by
    have hwords : textTokens (if negated then " IS NOT NULL" else " IS NULL") =
        .keyword .is :: (notTokens negated ++ [.keyword .null]) := by cases negated <;> decide
    have hapart : (Piece.text (if negated then " IS NOT NULL" else " IS NULL")).startsApart = true := by
      cases negated <;> decide
    rw [Expr.pieces, Piece.tokens, Piece.tokens, textTokens_column h hapart, hwords, List.append_nil]
  rw [htokens]
  refine reads_test (List.cons_ne_nil _ _) fun fuel rest _ => ?_
  cases negated with
  | true => exact ⟨.not (.isNull (.column column)), rfl, rfl⟩
  | false => exact ⟨.isNull (.column column), rfl, rfl⟩

/-! ### Lists -/

theorem tokens_listPieces (v v' : Value) (rest : List Value) :
    Piece.tokens f (listPieces (v :: v' :: rest)) =
      f v ++ .comma :: Piece.tokens f (listPieces (v' :: rest)) := by
  have hcomma : textTokens ", " = [.comma] := by decide
  rw [listPieces, Piece.tokens, Piece.tokens, hcomma]
  · rfl
  · exact List.cons_ne_nil _ _

theorem length_le_listPieces (vs : List Value) :
    vs.length ≤ (Piece.tokens f (listPieces vs)).length + 1 := by
  induction vs with
  | nil => exact Nat.zero_le _
  | cons v rest ih =>
    cases rest with
    | nil => exact Nat.le_add_left _ _
    | cons v' rest =>
      simp only [tokens_listPieces, List.length_append, List.length_cons] at ih ⊢
      omega

theorem operands_listPieces (hf : Stands f) {vs : List Value} (hne : vs ≠ []) (fuel : Nat)
    (rest : List Token) (hfuel : vs.length ≤ fuel) :
    operands? fuel (Piece.tokens f (listPieces vs) ++ .closing :: rest) =
      some (vs.map fun v => .constant v.operand, rest) := by
  induction vs generalizing fuel with
  | nil => exact absurd rfl hne
  | cons v vs ih =>
    rw [List.length_cons] at hfuel
    obtain ⟨fuel, rfl⟩ : ∃ n, fuel = n + 1 := ⟨fuel - 1, by omega⟩
    cases vs with
    | nil =>
      rw [listPieces, Piece.tokens, Piece.tokens, List.append_nil, operands?, hf]
      rfl
    | cons v' vs =>
      rw [tokens_listPieces, List.append_assoc, operands?, hf]
      show (operands? fuel (Piece.tokens f (listPieces (v' :: vs)) ++ .closing :: rest) >>= fun read =>
        some (Term.constant v.operand :: read.1, read.2)) = _
      rw [ih (List.cons_ne_nil _ _) fuel (by omega)]
      rfl

/-- Two numbers that are compared stand for a truth value. -/
theorem reads_equation (x y : Rat) :
    ReadsUnit w row [.constant (.number x), .compare .eq, .constant (.number y)]
      (.ofBool (decide (x = y))) := by
  intro fuel rest hfuel
  obtain ⟨fuel, rfl⟩ : ∃ n, fuel = n + 1 := ⟨fuel - 1, by simp at hfuel; omega⟩
  refine ⟨.compare .eq (.constant (.number x)) (.constant (.number y)), rfl, ?_⟩
  exact congrArg Truth.ofBool (w.numbers .eq x y)

theorem token_numeral (n : Nat) :
    Lexeme.token [] 0 (.word (Nat.toDigits 10 n)) = .constant (.number n) :=
  wordToken_numeral (toDigits_numeral n) []

theorem reads_inList {column : String} (h : IsColumn column) (hf : Stands f) (vs : List Value) :
    ReadsUnit w row (Piece.tokens f (Expr.inList column vs).pieces)
      ((Expr.inList column vs).truth w row) := by
  cases vs with
  | nil =>
    have hlex : lexText "1=0" = [.word (Nat.toDigits 10 1), .sign ['='], .word (Nat.toDigits 10 0)] := by
      decide
    have htokens : Piece.tokens f (Expr.inList column []).pieces =
        [.constant (.number (1 : Nat)), .compare .eq, .constant (.number (0 : Nat))] := by
      rw [Expr.pieces, Piece.tokens, Piece.tokens, textTokens, hlex, List.map_cons, List.map_cons,
        List.map_singleton, token_numeral, token_numeral]
      rfl
    have hfalse : (Expr.inList column []).truth w row =
        .ofBool (decide (((1 : Nat) : Rat) = ((0 : Nat) : Rat))) := by
      have hne : decide (((1 : Nat) : Rat) = ((0 : Nat) : Rat)) = false := by simp
      rw [hne]
      rfl
    rw [htokens, hfalse]
    exact reads_equation _ _
  | cons v vs =>
    have htokens : Piece.tokens f (Expr.inList column (v :: vs)).pieces =
        .column column :: (notTokens false ++ .keyword .isIn :: .opening ::
          (Piece.tokens f (listPieces (v :: vs)) ++ [.closing])) := by
      have hwords : textTokens " IN (" = [.keyword .isIn, .opening] := by decide
      have hclosing : textTokens ")" = [.closing] := by decide
      rw [Expr.pieces, Piece.tokens, Piece.tokens_append, textTokens_column h (by decide), hwords,
        Piece.tokens, hclosing]
      rfl
    rw [htokens]
    refine reads_tested (.inr (.inr rfl)) false fun fuel rest hfuel => ?_
    refine ⟨.among (.column column) ((v :: vs).map fun v => .constant v.operand), ?_, ?_⟩
    · have hlength := length_le_listPieces (f := f) (v :: vs)
      rw [List.length_cons, List.length_append] at hfuel
      rw [List.cons_append, List.cons_append, List.append_assoc, tested?, List.singleton_append,
        operands_listPieces hf (List.cons_ne_nil _ _) fuel rest (by omega)]
      rfl
    · rw [Predicate.truth, List.map_map]
      rfl

/-! ### Expressions -/

mutual

/-- No chain stands among the items of a chain, and no chain is empty. The expression itself may be a
chain only if `chained`. -/
def Expr.Layered (chained : Bool) : Expr → Prop
  | .not e | .nested e => e.Layered true
  | .chain items => chained = true ∧ items ≠ [] ∧ Expr.LayeredItems items
  | .raw _ | .compare .. | .like .. | .between .. | .isNull .. | .inList .. => True

def Expr.LayeredItems : List (Connective × Expr) → Prop
  | [] => True
  | (_, e) :: rest => e.Layered false ∧ Expr.LayeredItems rest

end

theorem Expr.layeredItems_iff {items : List (Connective × Expr)} :
    Expr.LayeredItems items ↔ ∀ item ∈ items, item.2.Layered false := by
  induction items with
  | nil => simp [Expr.LayeredItems]
  | cons item rest ih => rw [Expr.LayeredItems, ih, List.forall_mem_cons]

/-- What stands in front of an item. -/
def connectiveKeyword : Connective → Keyword
  | .and => .and
  | .or => .or

theorem tokens_restPieces (items : List (Connective × Expr)) :
    Piece.tokens f (Expr.restPieces items) = items.flatMap fun item =>
      .keyword (connectiveKeyword item.1) :: Piece.tokens f item.2.pieces := by
  induction items with
  | nil => rfl
  | cons item rest ih =>
    obtain ⟨c, e⟩ := item
    have hword : textTokens (" " ++ c.text ++ " ") = [.keyword (connectiveKeyword c)] := by
      cases c <;> decide
    rw [Expr.restPieces, Piece.tokens, hword, Piece.tokens_append, ih]
    rfl

theorem joinBy_concat (k : Keyword) {more : List (List Token)} (hne : more ≠ []) (ts : List Token) :
    joinBy k (more ++ [ts]) = joinBy k more ++ .keyword k :: ts := by
  induction more with
  | nil => exact absurd rfl hne
  | cons first more ih =>
    by_cases hlast : more = []
    · subst hlast
      rfl
    · rw [List.cons_append, joinBy_cons k first (by simp), ih hlast, joinBy_cons k first hlast,
        List.append_assoc]
      rfl

/-- The text of a chain is that of its runs with OR between them. -/
theorem tokens_runsFrom {met : List Expr} (hne : met ≠ []) (items : List (Connective × Expr)) :
    joinBy .or ((runsFrom met items).map fun run =>
        joinBy .and (run.map fun e => Piece.tokens f e.pieces)) =
      joinBy .and (met.map fun e => Piece.tokens f e.pieces) ++
        Piece.tokens f (Expr.restPieces items) := by
  induction items generalizing met with
  | nil =>
    show _ = joinBy .and (met.map fun e => Piece.tokens f e.pieces) ++ []
    rw [List.append_nil]
    rfl
  | cons item rest ih =>
    obtain ⟨c, e⟩ := item
    rw [tokens_restPieces, List.flatMap_cons, ← tokens_restPieces]
    cases c with
    | and =>
      rw [runsFrom, ih (by simp), List.map_append, List.map_singleton,
        joinBy_concat .and (by simpa using hne), List.append_assoc]
      rfl
    | or =>
      rw [runsFrom, List.map_cons, joinBy_cons .or _ (by simpa using runsFrom_ne_nil _ _),
        ih (List.cons_ne_nil _ _)]
      rfl

theorem tokens_chain {items : List (Connective × Expr)} (hne : items ≠ []) :
    Piece.tokens f (Expr.chain items).pieces = joinBy .or ((runs items).map fun run =>
      joinBy .and (run.map fun e => Piece.tokens f e.pieces)) := by
  cases items with
  | nil => exact absurd rfl hne
  | cons item rest =>
    rw [runs, tokens_runsFrom (List.cons_ne_nil _ _), Expr.pieces, Piece.tokens_append]
    rfl

/-- A chain of units reads as a disjunction. -/
theorem reads_chain {items : List (Connective × Expr)} (hne : items ≠ [])
    (h : ∀ item ∈ items, ReadsUnit w row (Piece.tokens f item.2.pieces) (item.2.truth w row)) :
    ReadsDisjunction w row (Piece.tokens f (Expr.chain items).pieces)
      ((Expr.chain items).truth w row) := by
  rw [tokens_chain hne, Expr.truth_chain]
  refine reads_disjunction _ (runs_ne_nil hne) fun run hrun => ?_
  refine reads_conjunction _ (of_mem_runs hrun).1 fun e he => ?_
  obtain ⟨item, hitem, rfl⟩ := (of_mem_runs hrun).2 e he
  exact h item hitem

/-- **An expression reads back.** A layered expression whose names are columns reads as a predicate
that means what it means: as a unit if it is no chain, and as a disjunction in any case. -/
theorem Expr.reads (hf : Stands f) {e : Expr} (hover : e.Over IsColumn) :
    (e.Layered false → ReadsUnit w row (Piece.tokens f e.pieces) (e.truth w row)) ∧
      (e.Layered true → ReadsDisjunction w row (Piece.tokens f e.pieces) (e.truth w row)) := by
  have both {e : Expr} (h : ReadsUnit w row (Piece.tokens f e.pieces) (e.truth w row)) :
      (e.Layered false → ReadsUnit w row (Piece.tokens f e.pieces) (e.truth w row)) ∧
        (e.Layered true → ReadsDisjunction w row (Piece.tokens f e.pieces) (e.truth w row)) :=
    ⟨fun _ => h, fun _ => h.alone⟩
  have hopening : textTokens "(" = [.opening] := by decide
  have hclosing : textTokens ")" = [.closing] := by decide
  have hnot : textTokens "NOT (" = [.keyword .not, .opening] := by decide
  induction e using Expr.induct with
  | raw text => exact absurd hover id
  | compare column op v => exact both (reads_compare hover hf op v)
  | like column v negated => exact both (reads_like hover hf v negated)
  | between column low high negated => exact both (reads_between hover hf low high negated)
  | isNull column negated => exact both (reads_isNull hover negated)
  | inList column vs => exact both (reads_inList hover hf vs)
  | not e ih =>
    have htokens : Piece.tokens f (Expr.not e).pieces =
        .keyword .not :: .opening :: (Piece.tokens f e.pieces ++ [.closing]) := by
      rw [Expr.pieces, Piece.tokens, Piece.tokens_append, hnot, Piece.tokens, hclosing]
      rfl
    have hunit (hl : e.Layered true) : ReadsUnit w row (Piece.tokens f (Expr.not e).pieces)
        ((Expr.not e).truth w row) := by
      rw [htokens]
      exact reads_negated (reads_parenthesized ((ih hover).2 hl))
    exact ⟨hunit, fun hl => (hunit hl).alone⟩
  | nested e ih =>
    have htokens : Piece.tokens f (Expr.nested e).pieces =
        .opening :: (Piece.tokens f e.pieces ++ [.closing]) := by
      rw [Expr.pieces, Piece.tokens, Piece.tokens_append, hopening, Piece.tokens, hclosing]
      rfl
    have hunit (hl : e.Layered true) : ReadsUnit w row (Piece.tokens f (Expr.nested e).pieces)
        ((Expr.nested e).truth w row) := by
      rw [htokens]
      exact reads_parenthesized ((ih hover).2 hl)
    exact ⟨hunit, fun hl => (hunit hl).alone⟩
  | chain items ih =>
    refine ⟨fun hl => absurd hl.1 Bool.false_ne_true, fun hl => ?_⟩
    rw [Expr.over_chain] at hover
    exact reads_chain hl.2.1 fun item hitem =>
      (ih item hitem (hover item hitem)).1 (Expr.layeredItems_iff.mp hl.2.2 item hitem)

end Tests

end BucketQuery.Sql
