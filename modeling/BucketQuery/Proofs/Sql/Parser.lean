import BucketQuery.Proofs.Sql.Meaning
import BucketQuery.Proofs.Sql.Token

/-! A parser for conditions.

NOT binds tighter than AND, and AND tighter than OR; parentheses group; a range takes the AND behind
its first bound. Each level of the grammar is one function, and a step down or to the right takes
one unit of fuel, of which twice the number of tokens is enough. `Takes` says that a level reads
some tokens off whatever follows, as a predicate of a given truth; from what each operand takes
`takes_conjunction` and `takes_disjunction` find what a run and a row of runs take. -/
namespace BucketQuery.Sql

/-! ### The grammar -/

/-- An operand, and what follows it. -/
def operand? : List Token → Option (Term × List Token)
  | .column name :: rest => some (.column name, rest)
  | .constant v :: rest => some (.constant v, rest)
  | .keyword .null :: rest => some (.constant .null, rest)
  | .minus :: .constant (.number x) :: rest => some (.constant (.number (-x)), rest)
  | _ => none

/-- Operands with commas between them, up to a closing parenthesis. -/
def operands? : (fuel : Nat) → List Token → Option (List Term × List Token)
  | 0, _ => none
  | fuel + 1, ts => do
    let (a, rest) ← operand? ts
    match rest with
    | .comma :: rest =>
      let (as, rest) ← operands? fuel rest
      return (a :: as, rest)
    | .closing :: rest => return ([a], rest)
    | _ => none

/-- The test of an operand behind which NOT may have stood. -/
def tested? (fuel : Nat) (a : Term) : List Token → Option (Predicate × List Token)
  | .keyword .like :: rest => do
    let (b, rest) ← operand? rest
    return (.like a b, rest)
  | .keyword .between :: rest => do
    let (low, rest) ← operand? rest
    match rest with
    | .keyword .and :: rest =>
      let (high, rest) ← operand? rest
      return (.between a low high, rest)
    | _ => none
  | .keyword .isIn :: .opening :: rest => do
    let (bs, rest) ← operands? fuel rest
    return (.among a bs, rest)
  | _ => none

def test? (fuel : Nat) (ts : List Token) : Option (Predicate × List Token) := do
  let (a, rest) ← operand? ts
  match rest with
  | .compare op :: rest =>
    let (b, rest) ← operand? rest
    return (.compare op a b, rest)
  | .keyword .is :: .keyword .null :: rest => return (.isNull a, rest)
  | .keyword .is :: .keyword .not :: .keyword .null :: rest => return (.not (.isNull a), rest)
  | .keyword .not :: rest =>
    let (p, rest) ← tested? fuel a rest
    return (.not p, rest)
  | rest => tested? fuel a rest

/-- What follows a keyword. -/
def behind? (k : Keyword) (ts : List Token) : Option (List Token) :=
  if ts.head? = some (.keyword k) then some ts.tail else none

mutual

/-- Conjunctions with OR between them. -/
def disjunction? : (fuel : Nat) → List Token → Option (Predicate × List Token)
  | 0, _ => none
  | fuel + 1, ts => do
    let (p, rest) ← conjunction? fuel ts
    match behind? .or rest with
    | some more =>
      let (q, rest) ← disjunction? fuel more
      return (.or p q, rest)
    | none => return (p, rest)

/-- Units with AND between them. -/
def conjunction? : (fuel : Nat) → List Token → Option (Predicate × List Token)
  | 0, _ => none
  | fuel + 1, ts => do
    let (p, rest) ← unit? fuel ts
    match behind? .and rest with
    | some more =>
      let (q, rest) ← conjunction? fuel more
      return (.and p q, rest)
    | none => return (p, rest)

/-- A test, what stands behind NOT, or what stands in parentheses. -/
def unit? : (fuel : Nat) → List Token → Option (Predicate × List Token)
  | 0, _ => none
  | fuel + 1, .keyword .not :: rest => do
    let (p, rest) ← unit? fuel rest
    return (.not p, rest)
  | fuel + 1, .opening :: rest => do
    let (p, rest) ← disjunction? fuel rest
    match rest with
    | .closing :: rest => return (p, rest)
    | _ => none
  | fuel + 1, ts => test? fuel ts

end

/-- The shape of the two upper levels: an operand of the level below and, behind the keyword, more of
this one. -/
def level (k : Keyword) (build : Predicate → Predicate → Predicate)
    (below parse : List Token → Option (Predicate × List Token)) (ts : List Token) :
    Option (Predicate × List Token) := do
  let (p, rest) ← below ts
  match behind? k rest with
  | some more =>
    let (q, rest) ← parse more
    return (build p q, rest)
  | none => return (p, rest)

theorem conjunction_succ (fuel : Nat) :
    conjunction? (fuel + 1) = level .and .and (unit? fuel) (conjunction? fuel) := rfl

theorem disjunction_succ (fuel : Nat) :
    disjunction? (fuel + 1) = level .or .or (conjunction? fuel) (disjunction? fuel) := rfl

/-! ### What the levels take -/

section Takes
variable {Cell : Type} (w : Cells Cell) (row : Row Cell)

/-- A parser reads the tokens off what follows them, as a predicate of this truth. -/
def Takes (parse : List Token → Option (Predicate × List Token)) (ts rest : List Token) (t : Truth) :
    Prop :=
  ∃ p, parse (ts ++ rest) = some (p, rest) ∧ p.truth w row = t

/-- Tokens that read as a unit, whatever follows. -/
def ReadsUnit (ts : List Token) (t : Truth) : Prop :=
  ∀ fuel rest, 2 * ts.length ≤ fuel + 2 → Takes w row (unit? fuel) ts rest t

/-- Tokens that read as a conjunction, if no AND follows. -/
def ReadsConjunction (ts : List Token) (t : Truth) : Prop :=
  ∀ fuel rest, 2 * ts.length ≤ fuel + 1 → rest.head? ≠ some (.keyword .and) →
    Takes w row (conjunction? fuel) ts rest t

/-- Tokens that read as a disjunction, if neither AND nor OR follows. -/
def ReadsDisjunction (ts : List Token) (t : Truth) : Prop :=
  ∀ fuel rest, 2 * ts.length ≤ fuel → rest.head? ≠ some (.keyword .and) →
    rest.head? ≠ some (.keyword .or) → Takes w row (disjunction? fuel) ts rest t

/-- Lists of tokens with a keyword between them. -/
def joinBy (k : Keyword) : List (List Token) → List Token
  | [] => []
  | [ts] => ts
  | ts :: next :: more => ts ++ .keyword k :: joinBy k (next :: more)

theorem joinBy_cons (k : Keyword) (ts : List Token) {more : List (List Token)} (h : more ≠ []) :
    joinBy k (ts :: more) = ts ++ .keyword k :: joinBy k more := by
  cases more with
  | nil => exact absurd rfl h
  | cons next more => rfl

theorem length_joinBy_cons (k : Keyword) (ts : List Token) {more : List (List Token)} (h : more ≠ []) :
    (joinBy k (ts :: more)).length = ts.length + (joinBy k more).length + 1 := by
  rw [joinBy_cons k ts h, List.length_append, List.length_cons]
  omega

variable {w row}

theorem ReadsUnit.length_pos {ts : List Token} {t : Truth} (h : ReadsUnit w row ts t) :
    0 < ts.length := by
  cases ts with
  | nil =>
    obtain ⟨_, hp, _⟩ := h 0 [] (Nat.zero_le _)
    cases hp
  | cons _ _ => exact Nat.succ_pos _

theorem ReadsConjunction.length_pos {ts : List Token} {t : Truth}
    (h : ReadsConjunction w row ts t) : 0 < ts.length := by
  cases ts with
  | nil =>
    obtain ⟨_, hp, _⟩ := h 0 [] (Nat.zero_le _) (by simp)
    cases hp
  | cons _ _ => exact Nat.succ_pos _

variable {ι : Type} {T : ι → List Token} {M : ι → Truth}

/-- An operand that no keyword of its level follows is read by the level. -/
theorem takes_last {k : Keyword} {build : Predicate → Predicate → Predicate}
    {below parse : List Token → Option (Predicate × List Token)} {ts rest : List Token} {t : Truth}
    (h : Takes w row below ts rest t) (hrest : rest.head? ≠ some (.keyword k)) :
    Takes w row (level k build below parse) ts rest t := by
  obtain ⟨p, hp, ht⟩ := h
  refine ⟨p, ?_, ht⟩
  rw [level, hp]
  simp only [Option.bind_eq_bind, Option.bind_some, behind?, if_neg hrest]
  rfl

/-- An operand, the keyword of its level and what is read behind it are read by the level. -/
theorem takes_more {k : Keyword} {build : Predicate → Predicate → Predicate}
    {below parse : List Token → Option (Predicate × List Token)} {ts more rest : List Token}
    {t u : Truth} {op : Truth → Truth → Truth}
    (hbuild : ∀ p q, (build p q).truth w row = op (p.truth w row) (q.truth w row))
    (h : Takes w row below ts (.keyword k :: (more ++ rest)) t) (hmore : Takes w row parse more rest u) :
    Takes w row (level k build below parse) (ts ++ .keyword k :: more) rest (op t u) := by
  obtain ⟨p, hp, ht⟩ := h
  obtain ⟨q, hq, hu⟩ := hmore
  refine ⟨build p q, ?_, by rw [hbuild, ht, hu]⟩
  rw [level, List.append_assoc, List.cons_append, hp]
  simp only [Option.bind_eq_bind, Option.bind_some, behind?, List.head?_cons, if_pos, List.tail_cons,
    hq]
  rfl

/-- Units with AND between them are a conjunction. -/
theorem reads_conjunction (us : List ι) (hne : us ≠ [])
    (h : ∀ u ∈ us, ReadsUnit w row (T u) (M u)) :
    ReadsConjunction w row (joinBy .and (us.map T)) (Truth.all (us.map M)) := by
  induction us with
  | nil => exact absurd rfl hne
  | cons u us ih =>
    intro fuel rest hfuel hrest
    obtain ⟨hu, hus⟩ := List.forall_mem_cons.mp h
    have hlen := hu.length_pos
    by_cases hlast : us = []
    · subst hlast
      rw [List.map_singleton, joinBy] at hfuel ⊢
      obtain ⟨fuel, rfl⟩ : ∃ f, fuel = f + 1 := ⟨fuel - 1, by omega⟩
      rw [List.map_singleton, Truth.all, Truth.all, Truth.and_true, conjunction_succ]
      exact takes_last (hu fuel rest (by omega)) hrest
    · have hmap : us.map T ≠ [] := mt List.map_eq_nil_iff.mp hlast
      rw [List.map_cons, length_joinBy_cons _ _ hmap] at hfuel
      obtain ⟨fuel, rfl⟩ : ∃ f, fuel = f + 1 := ⟨fuel - 1, by omega⟩
      rw [List.map_cons, joinBy_cons _ _ hmap, List.map_cons, Truth.all, conjunction_succ]
      exact takes_more (fun _ _ => rfl) (hu fuel _ (by omega))
        (ih hlast hus fuel rest (by omega) hrest)

/-- Conjunctions with OR between them are a disjunction. -/
theorem reads_disjunction (us : List ι) (hne : us ≠ [])
    (h : ∀ u ∈ us, ReadsConjunction w row (T u) (M u)) :
    ReadsDisjunction w row (joinBy .or (us.map T)) (Truth.any (us.map M)) := by
  induction us with
  | nil => exact absurd rfl hne
  | cons u us ih =>
    intro fuel rest hfuel hand hor
    obtain ⟨hu, hus⟩ := List.forall_mem_cons.mp h
    have hlen := hu.length_pos
    by_cases hlast : us = []
    · subst hlast
      rw [List.map_singleton, joinBy] at hfuel ⊢
      obtain ⟨fuel, rfl⟩ : ∃ f, fuel = f + 1 := ⟨fuel - 1, by omega⟩
      rw [List.map_singleton, Truth.any, Truth.any, Truth.or_false, disjunction_succ]
      exact takes_last (hu fuel rest (by omega) hand) hor
    · have hmap : us.map T ≠ [] := mt List.map_eq_nil_iff.mp hlast
      rw [List.map_cons, length_joinBy_cons _ _ hmap] at hfuel
      obtain ⟨fuel, rfl⟩ : ∃ f, fuel = f + 1 := ⟨fuel - 1, by omega⟩
      rw [List.map_cons, joinBy_cons _ _ hmap, List.map_cons, Truth.any, disjunction_succ]
      exact takes_more (fun _ _ => rfl) (hu fuel _ (by omega) (by simp))
        (ih hlast hus fuel rest (by omega) hand hor)

/-- A conjunction alone is a disjunction. -/
theorem ReadsConjunction.alone {ts : List Token} {t : Truth} (h : ReadsConjunction w row ts t) :
    ReadsDisjunction w row ts t := by
  have hdisj : ReadsDisjunction w row ts (Truth.any [t]) :=
    reads_disjunction (T := fun _ => ts) (M := fun _ => t) [()] (List.cons_ne_nil _ _) fun _ _ => h
  rwa [Truth.any, Truth.any, Truth.or_false] at hdisj

/-- A unit alone is a disjunction. -/
theorem ReadsUnit.alone {ts : List Token} {t : Truth} (h : ReadsUnit w row ts t) :
    ReadsDisjunction w row ts t := by
  have hconj : ReadsConjunction w row ts (Truth.all [t]) :=
    reads_conjunction (T := fun _ => ts) (M := fun _ => t) [()] (List.cons_ne_nil _ _) fun _ _ => h
  rw [Truth.all, Truth.all, Truth.and_true] at hconj
  exact hconj.alone

/-- What reads as a disjunction is a unit in parentheses. -/
theorem reads_parenthesized {ts : List Token} {t : Truth} (h : ReadsDisjunction w row ts t) :
    ReadsUnit w row (.opening :: (ts ++ [.closing])) t := by
  intro fuel rest hfuel
  rw [List.length_cons, List.length_append, List.length_singleton] at hfuel
  obtain ⟨fuel, rfl⟩ : ∃ f, fuel = f + 1 := ⟨fuel - 1, by omega⟩
  obtain ⟨p, hp, ht⟩ := h fuel (.closing :: rest) (by omega) (by simp) (by simp)
  refine ⟨p, ?_, ht⟩
  rw [List.cons_append, List.append_assoc, unit?, List.singleton_append, hp]
  rfl

theorem reads_negated {ts : List Token} {t : Truth} (h : ReadsUnit w row ts t) :
    ReadsUnit w row (.keyword .not :: ts) t.not := by
  intro fuel rest hfuel
  have hlen := h.length_pos
  rw [List.length_cons] at hfuel
  obtain ⟨fuel, rfl⟩ : ∃ f, fuel = f + 1 := ⟨fuel - 1, by omega⟩
  obtain ⟨p, hp, ht⟩ := h fuel rest (by omega)
  refine ⟨.not p, ?_, by rw [Predicate.truth, ht]⟩
  rw [List.cons_append, unit?, hp]
  rfl

end Takes

end BucketQuery.Sql
