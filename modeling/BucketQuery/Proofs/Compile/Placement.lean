import BucketQuery.Proofs.Compile.Contained
import BucketQuery.Proofs.Compile.Emission
import BucketQuery.Proofs.Compile.WhereText
import BucketQuery.Proofs.Sql.Standalone
import BucketQuery.Proofs.Sql.Wildcard

/-! Where a pattern test looks for its text.

A pattern test puts a `%` in front of its text, behind it or on both sides. As far as the text has no
wildcards of its own, a cell passes exactly if the text occurs in it at the place that the operator names:
anywhere, nowhere, at the start or at the end (`like_occurs`). The pattern is the same whether it is a
parameter or stands in the text: what a dialect scans in its literal is the pattern again. -/
namespace BucketQuery

open BucketQuery.Filter (Condition Operator Placement)
open Sql (Cells Dialect Expr IsColumn LiteralMode Mark Matches Predicate Row Truth isWildcard negateIf)

/-- A text occurs in another at a place. -/
def Filter.Placement.Occurs (p : Placement) (v s : List Char) : Prop :=
  match p with
  | .within => v <:+: s
  | .nowhere => ¬ v <:+: s
  | .start => v <+: s
  | .finish => v <:+ s

instance (p : Placement) (v s : List Char) : Decidable (p.Occurs v s) :=
  match p with
  | .within => inferInstanceAs (Decidable (v <:+: s))
  | .nowhere => inferInstanceAs (Decidable (¬ v <:+: s))
  | .start => inferInstanceAs (Decidable (v <+: s))
  | .finish => inferInstanceAs (Decidable (v <:+ s))

namespace Compile

/-! ### Patterns -/

theorem pattern_toList (v : String) (p : Placement) :
    (pattern v p).toList = (if p = .start then [] else ['%']) ++ v.toList ++
      if p = .finish then [] else ['%'] := by
  cases p <;> simp [pattern]

/-- A pattern adds nothing but `%` to its text. -/
theorem mem_pattern {v : String} {p : Placement} {c : Char} (h : c ∈ (pattern v p).toList) :
    c ∈ v.toList ∨ c = '%' := by
  rw [pattern_toList, List.mem_append, List.mem_append] at h
  rcases h with (h | h) | h
  · split at h
    · cases h
    · exact .inr (List.mem_singleton.mp h)
  · exact .inl h
  · split at h
    · cases h
    · exact .inr (List.mem_singleton.mp h)

/-- The pattern of a text without wildcards finds it where the operator says, or, for `nowhere`, finds what
the operator rules out. -/
theorem matches_pattern_iff (p : Placement) {v : String} (hv : ∀ c ∈ v.toList, isWildcard c = false)
    (s : List Char) :
    (if p = .nowhere then ¬ Matches (pattern v p).toList s else Matches (pattern v p).toList s) ↔
      p.Occurs v.toList s := by
  rw [pattern_toList]
  cases p with
  | within => exact Sql.matches_within_iff hv
  | nowhere => exact not_congr (Sql.matches_within_iff hv)
  | start => exact Sql.matches_start_iff hv
  | finish =>
    show Matches ('%' :: (v.toList ++ [])) s ↔ _
    rw [List.append_nil]
    exact Sql.matches_finish_iff hv

/-! ### Conditions -/

theorem likeText_eq {c : Condition} {v : String} (h : Filter.patternText? c.value = some v) (op : Operator) :
    likeText c op = .ok v := by
  unfold likeText
  cases hvalue : c.value with
  | string s | number n | bool b =>
    rw [hvalue] at h
    exact congrArg Except.ok (Option.some.inj h)
  | null | array _ | object _ =>
    rw [hvalue] at h
    cases h

section Meaning
variable {Cell : Type} {w : Cells Cell} {row : Row Cell} {column s v : String} (p : Placement)

theorem truth_like (hw : w.MatchesPatterns) (hrow : row column = some (w.text s))
    (hv : ∀ c ∈ v.toList, isWildcard c = false ∧ c ≠ '\\') :
    (Expr.like column (.text (pattern v p)) (p == .nowhere)).truth w row =
      .ofBool (decide (p.Occurs v.toList s.toList)) := by
  have hbackslash : '\\' ∉ (pattern v p).toList := fun hmem =>
    (mem_pattern hmem).elim (fun h => (hv _ h).2 rfl) (by decide)
  have hiff := matches_pattern_iff p (fun c hc => (hv c hc).1) s.toList
  have htest : w.likes (row column) (w.value (.text (pattern v p))) =
      .ofBool (decide (Matches (pattern v p).toList s.toList)) := by
    rw [hrow, ← hw s _ hbackslash]
    rfl
  rw [Expr.truth, htest]
  -- Only the test that rules a text out is turned over.
  by_cases hp : p = .nowhere
  · subst hp
    rw [if_pos rfl] at hiff
    rw [beq_self_eq_true, negateIf, if_pos rfl, ← Truth.ofBool_not, ← decide_not, decide_eq_decide.mpr hiff]
  · rw [if_neg hp] at hiff
    rw [beq_eq_false_iff_ne.mpr hp, negateIf, if_neg Bool.false_ne_true, decide_eq_decide.mpr hiff]

end Meaning

/-- In the text of a pattern test a dialect scans the pattern, and nothing else, as a literal. -/
theorem scan_like {d : Dialect} (hd : d ∈ Dialect.all) {column : String} (h : Sql.isIdentifier column = true)
    (text : String) (negated : Bool) :
    (d.scan ((Expr.like column (.text text) negated).render d .inline).sql).map Mark.contents = some [text] := by
  have hover : (Expr.like column (.text text) negated).Over (Sql.isIdentifier · = true) := h
  rw [Expr.render_eq]
  have hscan := Sql.Piece.scan_inlineText hd (Expr.pieces_jointed _) (Expr.pieces_within hover)
  show (d.scan (Sql.Piece.inlineText d _)).map Mark.contents = _
  rw [hscan, Option.map_some, Sql.inlineMarks_contents]
  rfl

/-- **A pattern test looks for its text at one place.** On a column, and with a text that has no wildcards of
its own and no backslash, the test compiles to a pattern that a cell matches, or for `nowhere` does not,
exactly if the text occurs in it at the place. All dialects take the pattern as their only parameter, or scan
it as their only literal, so the test says the same in either mode. -/
theorem like_occurs {c : Condition} {p : Placement} {v : String}
    (hfield : Sql.isIdentifier (Text.trim c.field) = true) (hop : c.operator = some (.like p))
    (hnegated : c.negated = false) (hvalue : Filter.patternText? c.value = some v)
    (hv : ∀ ch ∈ v.toList, isWildcard ch = false ∧ ch ≠ '\\') :
    ∃ e text, condition c = .ok e ∧ e = .like (Text.trim c.field) (.text text) (p == .nowhere) ∧
      (∀ s, (if p = .nowhere then ¬ Matches text.toList s else Matches text.toList s) ↔
        p.Occurs v.toList s) ∧
      (∀ d ∈ Dialect.all, (e.render d .bound).params = [.text text] ∧
        (d.scan (e.render d .inline).sql).map Mark.contents = some [text]) ∧
      ∀ {Cell : Type} (w : Cells Cell), w.MatchesPatterns → ∀ (row : Row Cell) (s : String),
        row (Text.trim c.field) = some (w.text s) →
        e.truth w row = .ofBool (decide (p.Occurs v.toList s.toList)) ∧
        (IsColumn (Text.trim c.field) → ∀ d ∈ Dialect.all, ∀ (mode : LiteralMode),
          (d.standalone? (e.render d mode).params (e.render d mode).sql).map (Predicate.truth w row) =
            some (.ofBool (decide (p.Occurs v.toList s.toList)))) := by
  have hok := condition_like hfield hop (likeText_eq hvalue _)
  rw [hnegated] at hok
  refine ⟨_, pattern v p, hok, rfl, matches_pattern_iff p fun ch hch => (hv ch hch).1,
    fun d hd => ⟨rfl, scan_like hd hfield _ _⟩, fun w hw row s hrow => ?_⟩
  have htruth := truth_like p hw hrow hv
  refine ⟨htruth, fun hcolumn d hd mode => ?_⟩
  have hlayered : (Expr.like (Text.trim c.field) (.text (pattern v p)) (p == .nowhere)).Layered true := trivial
  exact htruth ▸ Expr.reads_standalone hd mode hcolumn hlayered

/-- Agents whose names end in a name with a quote. -/
def endingAgents : Condition := ⟨" agent", some (.like .finish), .string "o'brien", .and, false⟩

theorem brien_occurs :
    Sql.isIdentifier (Text.trim endingAgents.field) = true ∧ endingAgents.operator = some (.like .finish) ∧
    endingAgents.negated = false ∧ Filter.patternText? endingAgents.value = some "o'brien" ∧
    (∀ ch ∈ "o'brien".toList, isWildcard ch = false ∧ ch ≠ '\\') ∧ Cells.wildcards.MatchesPatterns ∧
    ∃ e, condition endingAgents = .ok e ∧
      (Dialect.mysql.standalone? [] (e.render .mysql .inline).sql).map
          (Predicate.truth Cells.wildcards fun _ => some (.inr "conan_o'brien")) = some .true ∧
      (Dialect.postgres.standalone? (e.render .postgres .bound).params (e.render .postgres .bound).sql).map
          (Predicate.truth Cells.wildcards fun _ => some (.inr "o'brien's")) = some .false := by
  have hfield : Sql.isIdentifier (Text.trim endingAgents.field) = true := by decide
  have hv : ∀ ch ∈ "o'brien".toList, isWildcard ch = false ∧ ch ≠ '\\' := by simp [isWildcard]
  have hcolumn : IsColumn (Text.trim endingAgents.field) := by decide
  obtain ⟨e, text, hok, rfl, -, -, hmeans⟩ := like_occurs hfield rfl rfl rfl hv
  refine ⟨hfield, rfl, rfl, rfl, hv, Cells.wildcards_matchesPatterns, _, hok, ?_, ?_⟩
  · have hrow := hmeans Cells.wildcards Cells.wildcards_matchesPatterns (fun _ => some (.inr "conan_o'brien"))
      "conan_o'brien" rfl
    exact (hrow.2 hcolumn .mysql (by simp [Dialect.all]) .inline).trans (by decide)
  · have hrow := hmeans Cells.wildcards Cells.wildcards_matchesPatterns (fun _ => some (.inr "o'brien's"))
      "o'brien's" rfl
    exact (hrow.2 hcolumn .postgres (by simp [Dialect.all]) .bound).trans (by decide)

end Compile

end BucketQuery
