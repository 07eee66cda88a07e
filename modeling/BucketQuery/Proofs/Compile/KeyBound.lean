import BucketQuery.Proofs.Compile.Columns
import BucketQuery.Proofs.Compile.DateRange
import BucketQuery.Proofs.Compile.WhereText
import BucketQuery.Proofs.Sql.Standalone
import Mathlib.Data.List.Lex

/-! A key on one side of a bound.

The test of a key looks at its columns one after the other, strictly at each but the last, and goes on to
the next where they tie. Main statement, `keyBound_lexicographic`: on rows with numbers in these columns
it is the lexicographic comparison with the bound, equality included, and so is its text. -/
namespace BucketQuery.Compile

open Sql (Cells Dialect IsColumn LiteralMode Predicate Row Truth)

section Key
variable {Cell : Type} (w : Cells Cell) {row : Row Cell} {keys : List (String × Int)}

/-- The test of a key is known on a row with cells in its columns. -/
theorem keyBound_known (side : Side) (hne : keys ≠ []) (h : ∀ key ∈ keys, row key.1 ≠ none) :
    (keyBound side keys).truth w row ≠ .unknown := by
  induction keys using keyBound.induct side with
  | case1 => exact absurd rfl hne
  | case2 column v => exact w.compares_int_known _ (h _ List.mem_cons_self) v
  | case3 column v rest hrest ih =>
    rw [List.forall_mem_cons] at h
    rw [keyBound_cons side column v hrest]
    show (Sql.Expr.chain _).truth w row ≠ _
    rw [truth_or]
    refine Truth.or_known (w.compares_int_known _ h.1 v) ?_
    show (Sql.Expr.chain _).truth w row ≠ _
    rw [truth_and]
    exact Truth.and_known (w.compares_int_known _ h.1 v) (ih hrest h.2)

/-- The key of a row lies on the inner side of the bound or is equal to it. -/
theorem keyBound_keeps (side : Side) (hne : keys ≠ []) {x : String → Int}
    (hrow : ∀ key ∈ keys, row key.1 = w.value (.int (x key.1))) :
    (keyBound side keys).truth w row = .true ↔
      side.Keeps (keys.map Prod.snd) (keys.map fun key => x key.1) := by
  refine keyBound_true_iff w row side hne ?_
  rw [List.forall₂_map_right_iff, List.forall₂_same]
  exact hrow

/-- **The test of a key is lexicographic.** On a row with numbers in the columns of a key, the lower test
is whether the key of the row is at least the bound, and the upper whether it is at most the bound;
both pass only the bound itself. The text of either test, in any dialect and mode, reads as the same. -/
theorem keyBound_lexicographic (hne : keys ≠ []) {x : String → Int}
    (hrow : ∀ key ∈ keys, row key.1 = w.value (.int (x key.1))) :
    (keyBound .lower keys).truth w row =
        .ofBool (decide (keys.map Prod.snd ≤ keys.map fun key => x key.1)) ∧
    (keyBound .upper keys).truth w row =
        .ofBool (decide ((keys.map fun key => x key.1) ≤ keys.map Prod.snd)) ∧
    ((keyBound .lower keys).truth w row = .true ∧ (keyBound .upper keys).truth w row = .true ↔
      ∀ key ∈ keys, x key.1 = key.2) ∧
    ((∀ key ∈ keys, IsColumn key.1) → ∀ (side : Side), ∀ d ∈ Dialect.all, ∀ (mode : LiteralMode),
      (d.standalone? ((keyBound side keys).render d mode).params
          ((keyBound side keys).render d mode).sql).map (Predicate.truth w row) =
        some ((keyBound side keys).truth w row)) := by
  have hcells : ∀ key ∈ keys, row key.1 ≠ none := fun key hkey => by
    rw [hrow key hkey]
    exact Option.some_ne_none _
  have hlower : (keyBound .lower keys).truth w row = .true ↔
      keys.map Prod.snd ≤ keys.map fun key => x key.1 :=
    (keyBound_keeps w .lower hne hrow).trans not_lt
  have hupper : (keyBound .upper keys).truth w row = .true ↔
      (keys.map fun key => x key.1) ≤ keys.map Prod.snd :=
    (keyBound_keeps w .upper hne hrow).trans not_lt
  refine ⟨?_, ?_, ?_, fun hcolumns side d hd mode => ?_⟩
  · exact Truth.eq_ofBool_decide (keyBound_known w .lower hne hcells) hlower
  · exact Truth.eq_ofBool_decide (keyBound_known w .upper hne hcells) hupper
  · rw [hlower, hupper, ← List.map_inj_left]
    exact and_comm.trans le_antisymm_iff.symm
  · exact Sql.Expr.reads_standalone hd mode (keyBound_over side hne hcolumns)
      (keyBound_layered side keys true)

end Key

/-- Seven o'clock on a leap day. -/
def leapMorning : List (String × Int) := [("year", 2024), ("month", 2), ("day", 29), ("hour", 7)]

/-- Noon of the same day, which ties with the morning on all columns but the last. -/
def leapNoon (column : String) : Int :=
  if column = "year" then 2024 else if column = "month" then 2 else if column = "day" then 29 else 12

def noonRow : Row (Rat ⊕ String) := fun column => Cells.plain.value (.int (leapNoon column))

theorem noon_behind_morning :
    leapMorning ≠ [] ∧ (∀ key ∈ leapMorning, noonRow key.1 = Cells.plain.value (.int (leapNoon key.1))) ∧
    (∀ key ∈ leapMorning, IsColumn key.1) ∧
    (keyBound .lower leapMorning).truth .plain noonRow = .true ∧
    (keyBound .upper leapMorning).truth .plain noonRow = .false ∧
    (Dialect.mysql.standalone? [] ((keyBound .upper leapMorning).render .mysql .inline).sql).map
      (Predicate.truth .plain noonRow) = some .false := by
  have hne : leapMorning ≠ [] := List.cons_ne_nil _ _
  have hcolumns : ∀ key ∈ leapMorning, IsColumn key.1 := by decide
  have hrow : ∀ key ∈ leapMorning, noonRow key.1 = Cells.plain.value (.int (leapNoon key.1)) :=
    fun _ _ => rfl
  have hd : Dialect.mysql ∈ Dialect.all := by simp [Dialect.all]
  obtain ⟨hlower, hupper, _, htext⟩ := keyBound_lexicographic Cells.plain hne hrow
  have hbehind : (keyBound .upper leapMorning).truth .plain noonRow = .false :=
    hupper.trans (by decide)
  refine ⟨hne, hrow, hcolumns, hlower.trans (by decide), hbehind, ?_⟩
  exact hbehind ▸ htext hcolumns .upper .mysql hd .inline

end BucketQuery.Compile
