import BucketQuery.Proofs.Sql.Meaning
import Mathlib.Data.List.Infix

/-! Texts that match a pattern.

In a pattern `%` stands for any text, `_` for one character of any kind, and whatever else there is for
itself. `Matches` is that relation, and `matchesText` decides it: a `%` may stop in front of every end of
the text that is left, so the matcher tries them all (`matchesText_iff`). Characters that are no wildcards
come off the front of pattern and text together (`matches_append_iff`), and with a `%` before them, behind
them or both, they are looked for at the end, at the start or anywhere. -/
namespace BucketQuery.Sql

def isWildcard (c : Char) : Bool := c == '%' || c == '_'

inductive Matches : (pattern text : List Char) → Prop
  | done : Matches [] []
  | any {p s : List Char} (skipped : List Char) : Matches p s → Matches ('%' :: p) (skipped ++ s)
  | one {p s : List Char} (c : Char) : Matches p s → Matches ('_' :: p) (c :: s)
  | same {p s : List Char} {c : Char} : isWildcard c = false → Matches p s → Matches (c :: p) (c :: s)

/-- The matcher, which goes by the pattern. -/
def matchesText : (pattern text : List Char) → Bool
  | [], s => s.isEmpty
  | c :: p, s =>
    if c = '%' then s.tails.any (matchesText p)
    else s.head?.any (fun d => c == '_' || c == d) && matchesText p s.tail

/-! ### One sign of the pattern -/

section Signs
variable {p s v : List Char}

theorem matches_nil_iff : Matches [] s ↔ s = [] := by
  constructor
  · rintro ⟨⟩
    rfl
  · rintro rfl
    exact .done

/-- What is behind a `%` matches some end of the text. -/
theorem matches_any_iff : Matches ('%' :: p) s ↔ ∃ rest, rest <:+ s ∧ Matches p rest := by
  constructor
  · intro h
    cases h with
    | any skipped h => exact ⟨_, List.suffix_append skipped _, h⟩
    | same hc _ => exact absurd hc (by decide)
  · rintro ⟨rest, ⟨skipped, rfl⟩, h⟩
    exact .any skipped h

theorem matches_cons_iff {c : Char} (hc : c ≠ '%') :
    Matches (c :: p) s ↔ ∃ d rest, s = d :: rest ∧ (c = '_' ∨ c = d) ∧ Matches p rest := by
  constructor
  · intro h
    cases h with
    | any skipped h => exact absurd rfl hc
    | one d h => exact ⟨d, _, rfl, .inl rfl, h⟩
    | same _ h => exact ⟨c, _, rfl, .inr rfl, h⟩
  · rintro ⟨d, rest, rfl, hd, h⟩
    by_cases hone : c = '_'
    · subst hone
      exact .one d h
    · obtain rfl := hd.resolve_left hone
      exact .same (by simp [isWildcard, hc, hone]) h

theorem matchesText_iff : matchesText p s = true ↔ Matches p s := by
  induction p generalizing s with
  | nil => rw [matchesText, List.isEmpty_iff, matches_nil_iff]
  | cons c p ih =>
    rw [matchesText]
    by_cases hc : c = '%'
    · subst hc
      rw [if_pos rfl, List.any_eq_true, matches_any_iff]
      exact exists_congr fun rest => and_congr (List.mem_tails rest s) ih
    · rw [if_neg hc, matches_cons_iff hc]
      cases s with
      | nil => simp
      | cons d s => simp [ih]

instance : Decidable (Matches p s) := decidable_of_iff (matchesText p s = true) matchesText_iff

/-- Characters that are no wildcards stand for themselves. -/
theorem matches_append_iff (hv : ∀ c ∈ v, isWildcard c = false) :
    Matches (v ++ p) s ↔ ∃ rest, s = v ++ rest ∧ Matches p rest := by
  induction v generalizing s with
  | nil => simp
  | cons c v ih =>
    rw [List.forall_mem_cons] at hv
    constructor
    · intro h
      cases h with
      | any skipped h => exact absurd hv.1 (by decide)
      | one d h => exact absurd hv.1 (by decide)
      | same _ h =>
        obtain ⟨rest, rfl, hrest⟩ := (ih hv.2).mp h
        exact ⟨rest, rfl, hrest⟩
    · rintro ⟨rest, rfl, hrest⟩
      exact .same hv.1 ((ih hv.2).mpr ⟨rest, rfl, hrest⟩)

end Signs

/-! ### A text between wildcards -/

section Places
variable {v s : List Char}

theorem matches_rest (s : List Char) : Matches ['%'] s :=
  matches_any_iff.mpr ⟨[], List.nil_suffix, .done⟩

theorem matches_start_iff (hv : ∀ c ∈ v, isWildcard c = false) : Matches (v ++ ['%']) s ↔ v <+: s := by
  rw [matches_append_iff hv]
  constructor
  · rintro ⟨rest, rfl, -⟩
    exact List.prefix_append v rest
  · rintro ⟨rest, rfl⟩
    exact ⟨rest, rfl, matches_rest rest⟩

theorem matches_self_iff (hv : ∀ c ∈ v, isWildcard c = false) : Matches v s ↔ s = v := by
  have h := matches_append_iff (p := []) (s := s) hv
  simp only [List.append_nil, matches_nil_iff] at h
  rw [h]
  constructor
  · rintro ⟨rest, rfl, rfl⟩
    exact List.append_nil v
  · rintro rfl
    exact ⟨[], (List.append_nil s).symm, rfl⟩

theorem matches_finish_iff (hv : ∀ c ∈ v, isWildcard c = false) : Matches ('%' :: v) s ↔ v <:+ s := by
  rw [matches_any_iff]
  constructor
  · rintro ⟨rest, hrest, h⟩
    rwa [(matches_self_iff hv).mp h] at hrest
  · exact fun h => ⟨v, h, (matches_self_iff hv).mpr rfl⟩

theorem matches_within_iff (hv : ∀ c ∈ v, isWildcard c = false) :
    Matches ('%' :: (v ++ ['%'])) s ↔ v <:+: s := by
  rw [matches_any_iff, List.infix_iff_prefix_suffix]
  exact exists_congr fun rest => and_comm.trans (and_congr_left' (matches_start_iff hv))

end Places

/-! ### A warehouse that matches so -/

/-- Texts match patterns by their wildcards. Of patterns with a backslash nothing is said: whether it stands
for itself is not the same in every dialect. -/
def Cells.MatchesPatterns {Cell : Type} (w : Cells Cell) : Prop :=
  ∀ s p : String, '\\' ∉ p.toList → w.like (w.text s) (w.text p) = decide (Matches p.toList s.toList)

/-- Numbers by their values, texts by their characters, and patterns by their wildcards. -/
def Cells.wildcards : Cells (Rat ⊕ String) :=
  {Cells.plain with
    like
      | .inr s, .inr p => matchesText p.toList s.toList
      | _, _ => false}

theorem Cells.wildcards_matchesPatterns : Cells.wildcards.MatchesPatterns := fun s p _ => by
  rw [Bool.eq_iff_iff, decide_eq_true_iff]
  exact matchesText_iff

-- The text behind a wildcard is not the first one of its kind.
example : Matches "%ab_".toList "abcabd".toList ∧ ¬ Matches "%ab_".toList "abcdab".toList := by decide

end BucketQuery.Sql
