import BucketQuery.Files.Pattern
import BucketQuery.Proofs.Outcome

/-! Patterns that stand for one name, and patterns that stand for an ending.

A text without wildcards is the pattern of itself only. A star in front of such a text is the pattern of the
names that end in it (`admits_ending_iff`). -/
namespace BucketQuery.Files.Pattern

/-- The character stands for itself. -/
def IsPlain (c : Char) : Prop := c ≠ '?' ∧ c ≠ '*' ∧ c ≠ '['

instance (c : Char) : Decidable (IsPlain c) := inferInstanceAs (Decidable (_ ∧ _))

theorem plain_of_all {cs : List Char} (h : (cs.all fun c => decide (IsPlain c)) = true) :
    ∀ c ∈ cs, IsPlain c := fun c hc => of_decide_eq_true (List.all_eq_true.mp h c hc)

/-- The pattern of one name. -/
def ofName (name : List Char) : Pattern := name.map .char

/-- The pattern of all names that end in `ending`. -/
def ofEnding (ending : List Char) : Pattern := .anyText :: ofName ending

/-! ### Reading -/

theorem read_plain (before : Option Char) (i fuel : Nat) {c : Char} (h : IsPlain c) (rest : List Char) :
    read before i (fuel + 1) (c :: rest) = (.char c :: ·) <$> read (some c) (i + 1) fuel rest := by
  obtain ⟨hany, hstar, hbracket⟩ := h
  rw [read]
  · cases read (some c) (i + 1) fuel rest <;> rfl
  all_goals simp_all

/-- Characters that stand for themselves are read one by one. -/
theorem read_append {name : List Char} (h : ∀ c ∈ name, IsPlain c) (before : Option Char) (i fuel : Nat)
    (rest : List Char) :
    ∃ before' i', read before i (fuel + name.length) (name ++ rest) =
      (ofName name ++ ·) <$> read before' i' fuel rest := by
  induction name generalizing before i with
  | nil =>
    refine ⟨before, i, ?_⟩
    show read before i fuel rest = _
    cases read before i fuel rest <;> rfl
  | cons c name ih =>
    rw [List.forall_mem_cons] at h
    obtain ⟨before', i', hread⟩ := ih h.2 (some c) (i + 1)
    refine ⟨before', i', ?_⟩
    rw [List.length_cons, ← Nat.add_assoc, List.cons_append, read_plain _ _ _ h.1, hread]
    cases read before' i' fuel rest <;> rfl

theorem read_nil (before : Option Char) (i : Nat) : read before i 0 [] = .ok [] := by rw [read]

theorem read_name {name : List Char} (h : ∀ c ∈ name, IsPlain c) (before : Option Char) (i : Nat) :
    read before i name.length name = .ok (ofName name) := by
  obtain ⟨before', i', hread⟩ := read_append h before i 0 []
  rw [List.append_nil, Nat.zero_add, read_nil] at hread
  rw [hread]
  exact congrArg Except.ok (List.append_nil _)

theorem ofText_name {name : String} (h : ∀ c ∈ name.toList, IsPlain c) :
    ofText name = .ok (ofName name.toList) := by
  rw [ofText, ← String.length_toList]
  exact read_name h none 0

theorem read_ending {ending : List Char} (h : ∀ c ∈ ending, IsPlain c) (before : Option Char) (i : Nat) :
    read before i (ending.length + 1) ('*' :: ending) = .ok (ofEnding ending) := by
  have hread := read_name h (some '*') (i + 1)
  cases ending with
  | nil =>
    rw [read]
    · rfl
    all_goals simp
  | cons c ending =>
    have hc : c ≠ '*' := (h c List.mem_cons_self).2.1
    rw [read]
    · rw [hread]
      rfl
    all_goals simp_all

theorem ofText_ending {ending : List Char} (h : ∀ c ∈ ending, IsPlain c) :
    ofText (String.ofList ('*' :: ending)) = .ok (ofEnding ending) := by
  rw [ofText, ← String.length_toList, String.toList_ofList]
  exact read_ending h none 0

/-- A star behind such a text is still no fault. -/
theorem ofText_within {name ending : List Char} (hname : ∀ c ∈ name, IsPlain c)
    (hending : ∀ c ∈ ending, IsPlain c) : ∃ p, ofText (String.ofList (name ++ '*' :: ending)) = .ok p := by
  obtain ⟨before, i, hread⟩ := read_append hname none 0 (ending.length + 1) ('*' :: ending)
  refine ⟨ofName name ++ ofEnding ending, ?_⟩
  rw [ofText, ← String.length_toList, String.toList_ofList, List.length_append, List.length_cons,
    Nat.add_comm name.length, hread, read_ending hending]
  rfl

/-! ### Matching -/

theorem literal?_ofName (name : List Char) : literal? (ofName name) = some name := by
  induction name with
  | nil => rfl
  | cons c name ih =>
    show (literal? (ofName name)).map (c :: ·) = _
    rw [ih]
    rfl

theorem admits_ofName_iff (name cs : List Char) : admits (ofName name) cs = true ↔ cs = name := by
  induction name generalizing cs with
  | nil =>
    show cs.isEmpty = true ↔ _
    rw [List.isEmpty_iff]
  | cons c name ih =>
    cases cs with
    | nil =>
      show false = true ↔ _
      simp
    | cons d cs =>
      show (d == c && admits (ofName name) cs) = true ↔ _
      rw [Bool.and_eq_true, beq_iff_eq, ih, List.cons.injEq]

theorem mem_suffixes_iff {cs rest : List Char} : rest ∈ suffixes cs ↔ rest <:+ cs := by
  induction cs with
  | nil => rw [suffixes, List.mem_singleton, List.suffix_nil]
  | cons c cs ih => rw [suffixes, List.mem_cons, ih, List.suffix_cons_iff]

/-- A star stands for whatever is in front of the ending. -/
theorem admits_ending_iff (ending cs : List Char) : admits (ofEnding ending) cs = true ↔ ending <:+ cs := by
  rw [ofEnding, admits, List.any_eq_true]
  simp only [admits_ofName_iff, mem_suffixes_iff]
  exact ⟨fun ⟨_, hsuffix, heq⟩ => heq ▸ hsuffix, fun h => ⟨ending, h, rfl⟩⟩

end BucketQuery.Files.Pattern
