import BucketQuery.Proofs.Sql.Bracket
import BucketQuery.Proofs.Sql.Clause

/-! Tokens between parentheses.

A reader that comes to balanced tokens does not read over a closing parenthesis behind them: it reads
what it would read of them alone (`Local`), and with more fuel it reads no more (`Steady`). Main
statement, `unit_enclosed`: balanced tokens in parentheses are one unit if they are a condition of their
own, and cannot be read if they are not. -/
namespace BucketQuery.Sql

/-! ### The parser, step by step -/

/-- What follows an operand of a list. -/
def operandsBehind? (fuel : Nat) (a : Term) : List Token → Option (List Term × List Token)
  | .comma :: rest => (operands? fuel rest).bind fun x => some (a :: x.1, x.2)
  | .closing :: rest => some ([a], rest)
  | _ => none

theorem operands_succ (fuel : Nat) :
    operands? (fuel + 1) = fun ts => (operand? ts).bind fun x => operandsBehind? fuel x.1 x.2 := rfl

/-- What follows the lower bound of a range. -/
def betweenBehind? (a low : Term) : List Token → Option (Predicate × List Token)
  | .keyword .and :: rest => (operand? rest).bind fun x => some (.between a low x.1, x.2)
  | _ => none

/-- What follows the operand that is tested. -/
def testBehind? (fuel : Nat) (a : Term) : List Token → Option (Predicate × List Token)
  | .compare op :: rest => (operand? rest).bind fun x => some (.compare op a x.1, x.2)
  | .keyword .is :: .keyword .null :: rest => some (.isNull a, rest)
  | .keyword .is :: .keyword .not :: .keyword .null :: rest => some (.not (.isNull a), rest)
  | .keyword .not :: rest => (tested? fuel a rest).bind fun x => some (.not x.1, x.2)
  | rest => tested? fuel a rest

theorem test_eq (fuel : Nat) :
    test? fuel = fun ts => (operand? ts).bind fun x => testBehind? fuel x.1 x.2 := rfl

/-- What follows an operand of one of the two upper levels. -/
def levelBehind? (k : Keyword) (build : Predicate → Predicate → Predicate)
    (parse : List Token → Option (Predicate × List Token)) (p : Predicate) (rest : List Token) :
    Option (Predicate × List Token) :=
  match behind? k rest with
  | some more => (parse more).bind fun x => some (build p x.1, x.2)
  | none => some (p, rest)

theorem level_eq (k : Keyword) (build : Predicate → Predicate → Predicate)
    (below parse : List Token → Option (Predicate × List Token)) :
    level k build below parse =
      fun ts => (below ts).bind fun x => levelBehind? k build parse x.1 x.2 := rfl

/-- A closing parenthesis behind a predicate. -/
def closed? (p : Predicate) : List Token → Option (Predicate × List Token)
  | .closing :: rest => some (p, rest)
  | _ => none

theorem unit_not (fuel : Nat) (ts : List Token) :
    unit? (fuel + 1) (.keyword .not :: ts) = (unit? fuel ts).bind fun x => some (.not x.1, x.2) := rfl

theorem unit_opening (fuel : Nat) (ts : List Token) :
    unit? (fuel + 1) (.opening :: ts) = (disjunction? fuel ts).bind fun x => closed? x.1 x.2 := rfl

/-! ### In front of a closing parenthesis -/

/-- With `n` parentheses open in front of the tokens, all are closed at their end and none before them. -/
def Closes (n : Nat) (ts : List Token) : Prop := depth? n (ts.filterMap Token.bracket) = some 0

section Local
variable {α β : Type} {more : List Token}

/-- What is read with a closing parenthesis behind the tokens is what is read without; `n` and `m`
parentheses are open in front of the tokens and of those that are left. -/
def Local (more : List Token) (n m : Nat) (parse : List Token → Option (α × List Token)) : Prop :=
  ∀ ts, Closes n ts →
    parse (ts ++ .closing :: more) = (parse ts).map (fun x => (x.1, x.2 ++ .closing :: more)) ∧
      ∀ x, parse ts = some x → Closes m x.2

theorem Local.pure (n : Nat) (a : α) : Local more n n fun ts => some (a, ts) := by
  intro ts hts
  refine ⟨rfl, fun x hx => ?_⟩
  cases hx
  exact hts

theorem Local.fail (n m : Nat) : Local more n m fun _ => (none : Option (α × List Token)) :=
  fun _ _ => ⟨rfl, fun _ hx => by cases hx⟩

theorem Local.bind {n m k : Nat} {parse : List Token → Option (α × List Token)}
    {next : α → List Token → Option (β × List Token)} (h : Local more n m parse)
    (hnext : ∀ a, Local more m k (next a)) :
    Local more n k fun ts => (parse ts).bind fun x => next x.1 x.2 := by
  intro ts hts
  obtain ⟨hparse, hleft⟩ := h ts hts
  dsimp only
  rw [hparse]
  cases hx : parse ts with
  | none => exact ⟨rfl, fun x hx => by cases hx⟩
  | some x => exact hnext x.1 x.2 (hleft x hx)

theorem Local.map {n m : Nat} {parse : List Token → Option (α × List Token)} (f : α → β)
    (h : Local more n m parse) :
    Local more n m fun ts => (parse ts).bind fun x => some (f x.1, x.2) :=
  h.bind fun a => Local.pure m (f a)

theorem operand_local (n : Nat) : Local more n n operand? := by
  intro ts hts
  cases ts with
  | nil => exact ⟨rfl, fun x hx => by cases hx⟩
  | cons t ts =>
    cases t with
    | column name => exact Local.pure n _ ts hts
    | constant v => exact Local.pure n _ ts hts
    | keyword k =>
      cases k with
      | null => exact Local.pure n _ ts hts
      | _ => exact Local.fail n n ts hts
    | minus =>
      cases ts with
      | nil => exact ⟨rfl, fun x hx => by cases hx⟩
      | cons t ts =>
        cases t with
        | constant v =>
          cases v with
          | number x => exact Local.pure n _ ts hts
          | _ => exact ⟨rfl, fun x hx => by cases hx⟩
        | _ => exact ⟨rfl, fun x hx => by cases hx⟩
    | _ => exact ⟨rfl, fun x hx => by cases hx⟩

theorem operands_local (fuel n : Nat) : Local more (n + 1) n (operands? fuel) := by
  induction fuel with
  | zero => exact Local.fail _ _
  | succ fuel ih =>
    rw [operands_succ]
    refine (operand_local (n + 1)).bind fun a ts hts => ?_
    cases ts with
    | nil => cases hts
    | cons t ts =>
      cases t with
      | comma => exact ih.map _ ts hts
      | closing => exact Local.pure n _ ts hts
      | _ => exact ⟨rfl, fun x hx => by cases hx⟩

theorem betweenBehind_local (n : Nat) (a low : Term) : Local more n n (betweenBehind? a low) := by
  intro ts hts
  cases ts with
  | nil => exact ⟨rfl, fun x hx => by cases hx⟩
  | cons t ts =>
    cases t with
    | keyword k =>
      cases k with
      | and => exact (operand_local n).map _ ts hts
      | _ => exact ⟨rfl, fun x hx => by cases hx⟩
    | _ => exact ⟨rfl, fun x hx => by cases hx⟩

theorem tested_local (fuel n : Nat) (a : Term) : Local more n n (tested? fuel a) := by
  intro ts hts
  cases ts with
  | nil => exact ⟨rfl, fun x hx => by cases hx⟩
  | cons t ts =>
    cases t with
    | keyword k =>
      cases k with
      | like => exact (operand_local n).map _ ts hts
      | between => exact (operand_local n).bind (betweenBehind_local n a) ts hts
      | isIn =>
        cases ts with
        | nil => exact ⟨rfl, fun x hx => by cases hx⟩
        | cons t ts =>
          cases t with
          | opening => exact (operands_local fuel n).map _ ts hts
          | _ => exact ⟨rfl, fun x hx => by cases hx⟩
      | _ => exact ⟨rfl, fun x hx => by cases hx⟩
    | _ => exact ⟨rfl, fun x hx => by cases hx⟩

/-- Behind IS stands NULL, with NOT in front of it or without. -/
theorem isBehind_local (fuel n : Nat) (a : Term) {ts : List Token} (hts : Closes n ts) :
    testBehind? fuel a (.keyword .is :: (ts ++ .closing :: more)) =
        (testBehind? fuel a (.keyword .is :: ts)).map (fun x => (x.1, x.2 ++ .closing :: more)) ∧
      ∀ x, testBehind? fuel a (.keyword .is :: ts) = some x → Closes n x.2 := by
  cases ts with
  | nil => exact ⟨rfl, fun x hx => by cases hx⟩
  | cons t ts =>
    cases t with
    | keyword k =>
      cases k with
      | null => exact Local.pure n _ ts hts
      | not =>
        cases ts with
        | nil => exact ⟨rfl, fun x hx => by cases hx⟩
        | cons t ts =>
          cases t with
          | keyword k =>
            cases k with
            | null => exact Local.pure n _ ts hts
            | _ => exact ⟨rfl, fun x hx => by cases hx⟩
          | _ => exact ⟨rfl, fun x hx => by cases hx⟩
      | _ => exact ⟨rfl, fun x hx => by cases hx⟩
    | _ => exact ⟨rfl, fun x hx => by cases hx⟩

theorem testBehind_local (fuel n : Nat) (a : Term) : Local more n n (testBehind? fuel a) := by
  intro ts hts
  cases ts with
  | nil => exact ⟨rfl, fun x hx => by cases hx⟩
  | cons t ts =>
    cases t with
    | compare op => exact (operand_local n).map _ ts hts
    | keyword k =>
      cases k with
      | is => exact isBehind_local fuel n a hts
      | not => exact (tested_local fuel n a).map _ ts hts
      | _ => exact tested_local fuel n a _ hts
    | _ => exact ⟨rfl, fun x hx => by cases hx⟩

theorem test_local (fuel n : Nat) : Local more n n (test? fuel) := by
  rw [test_eq]
  exact (operand_local n).bind (testBehind_local fuel n)

theorem closed_local (n : Nat) (p : Predicate) : Local more (n + 1) n (closed? p) := by
  intro ts hts
  cases ts with
  | nil => cases hts
  | cons t ts =>
    cases t with
    | closing => exact Local.pure n _ ts hts
    | _ => exact ⟨rfl, fun x hx => by cases hx⟩

theorem level_local {n : Nat} {k : Keyword} {build : Predicate → Predicate → Predicate}
    {below parse : List Token → Option (Predicate × List Token)} (hbelow : Local more n n below)
    (hparse : Local more n n parse) : Local more n n (level k build below parse) := by
  rw [level_eq]
  refine hbelow.bind fun p ts hts => ?_
  cases ts with
  | nil => exact Local.pure n p [] hts
  | cons t ts =>
    by_cases ht : t = .keyword k
    · subst ht
      have hbehind (rest : List Token) : behind? k (.keyword k :: rest) = some rest := if_pos rfl
      simp only [levelBehind?, List.cons_append, hbehind]
      exact hparse.map (build p) ts hts
    · have hbehind (rest : List Token) : behind? k (t :: rest) = none :=
        if_neg fun h => ht (Option.some.inj h)
      simp only [levelBehind?, List.cons_append, hbehind]
      exact Local.pure n p (t :: ts) hts

/-- No level of the grammar reads over the parenthesis. -/
theorem levels_local (fuel : Nat) :
    (∀ n, Local more n n (disjunction? fuel)) ∧ (∀ n, Local more n n (conjunction? fuel)) ∧
      ∀ n, Local more n n (unit? fuel) := by
  induction fuel with
  | zero => exact ⟨fun n => Local.fail n n, fun n => Local.fail n n, fun n => Local.fail n n⟩
  | succ fuel ih =>
    obtain ⟨hdisjunction, hconjunction, hunit⟩ := ih
    refine ⟨fun n => ?_, fun n => ?_, fun n ts hts => ?_⟩
    · rw [disjunction_succ]
      exact level_local (hconjunction n) (hdisjunction n)
    · rw [conjunction_succ]
      exact level_local (hunit n) (hconjunction n)
    · cases ts with
      | nil => exact test_local fuel n [] hts
      | cons t ts =>
        cases t with
        | keyword k =>
          cases k with
          | not => exact (hunit n).map _ ts hts
          | _ => exact test_local fuel n _ hts
        | opening => exact (hdisjunction (n + 1)).bind (closed_local n) ts hts
        | _ => exact test_local fuel n _ hts

end Local

/-! ### Fuel -/

/-- What has been read takes two tokens at least, and is read again with any fuel that is enough for
them, up to a margin of `c`. -/
def Steady {α : Type} (c : Nat) (parse : Nat → List Token → Option (α × List Token)) (fuel : Nat) :
    Prop :=
  ∀ ts x, parse fuel ts = some x → x.2.length + 2 ≤ ts.length ∧
    ∀ enough, 2 * ts.length ≤ enough + c + 2 * x.2.length → parse enough ts = some x

theorem operand_shorter {ts : List Token} {x : Term × List Token} (h : operand? ts = some x) :
    x.2.length < ts.length := by
  unfold operand? at h
  split at h
  · cases h
    exact Nat.lt_succ_self _
  · cases h
    exact Nat.lt_succ_self _
  · cases h
    exact Nat.lt_succ_self _
  · cases h
    exact Nat.lt_succ_of_lt (Nat.lt_succ_self _)
  · cases h

theorem operands_steady (fuel : Nat) : Steady 3 operands? fuel := by
  induction fuel with
  | zero => exact fun ts x h => by cases h
  | succ fuel ih =>
    intro ts x h
    rw [operands_succ] at h
    obtain ⟨⟨a, left⟩, ha, h⟩ := Option.bind_eq_some_iff.mp h
    have hshorter := operand_shorter ha
    cases left with
    | nil => cases h
    | cons t left =>
      rw [List.length_cons] at hshorter
      cases t with
      | comma =>
        obtain ⟨y, hy, h⟩ := Option.bind_eq_some_iff.mp h
        cases h
        obtain ⟨hlength, hagain⟩ := ih left y hy
        refine ⟨by dsimp only; omega, fun enough henough => ?_⟩
        dsimp only at henough
        obtain ⟨enough, rfl⟩ : ∃ e, enough = e + 1 := ⟨enough - 1, by omega⟩
        rw [operands_succ]
        dsimp only
        rw [ha, Option.bind_some]
        exact Option.bind_eq_some_iff.mpr ⟨y, hagain enough (by omega), rfl⟩
      | closing =>
        cases h
        refine ⟨by dsimp only; omega, fun enough henough => ?_⟩
        dsimp only at henough
        obtain ⟨enough, rfl⟩ : ∃ e, enough = e + 1 := ⟨enough - 1, by omega⟩
        rw [operands_succ]
        dsimp only
        rw [ha, Option.bind_some]
        rfl
      | _ => cases h

theorem betweenBehind_shorter {a low : Term} {ts : List Token} {x : Predicate × List Token}
    (h : betweenBehind? a low ts = some x) : x.2.length < ts.length := by
  unfold betweenBehind? at h
  split at h
  · obtain ⟨y, hy, h⟩ := Option.bind_eq_some_iff.mp h
    cases h
    exact Nat.lt_succ_of_lt (operand_shorter hy)
  · cases h

theorem tested_steady (a : Term) (fuel : Nat) : Steady 3 (fun fuel => tested? fuel a) fuel := by
  intro ts x h
  cases ts with
  | nil => cases h
  | cons t ts =>
    cases t with
    | keyword k =>
      cases k with
      | like =>
        refine ⟨?_, fun enough _ => h⟩
        obtain ⟨y, hy, h⟩ := Option.bind_eq_some_iff.mp h
        cases h
        exact Nat.succ_lt_succ (operand_shorter hy)
      | between =>
        refine ⟨?_, fun enough _ => h⟩
        obtain ⟨y, hy, h⟩ := Option.bind_eq_some_iff.mp h
        have hlow := operand_shorter hy
        have hhigh := betweenBehind_shorter h
        rw [List.length_cons]
        omega
      | isIn =>
        cases ts with
        | nil => cases h
        | cons t ts =>
          cases t with
          | opening =>
            obtain ⟨y, hy, h⟩ := Option.bind_eq_some_iff.mp h
            cases h
            obtain ⟨hlength, hagain⟩ := operands_steady fuel ts y hy
            rw [List.length_cons, List.length_cons]
            refine ⟨by dsimp only; omega, fun enough henough => ?_⟩
            dsimp only at henough
            exact Option.bind_eq_some_iff.mpr ⟨y, hagain enough (by omega), rfl⟩
          | _ => cases h
      | _ => cases h
    | _ => cases h

theorem testBehind_of_tested {a : Term} {fuel : Nat} {ts : List Token} {x : Predicate × List Token}
    (h : tested? fuel a ts = some x) (enough : Nat) : testBehind? enough a ts = tested? enough a ts := by
  cases ts with
  | nil => cases h
  | cons t ts =>
    cases t with
    | keyword k =>
      cases k with
      | like | between | isIn => rfl
      | _ => cases h
    | _ => cases h

/-- Behind an operand at least one token is read. -/
theorem testBehind_steady (a : Term) {fuel : Nat} {ts : List Token} {x : Predicate × List Token}
    (h : testBehind? fuel a ts = some x) : x.2.length < ts.length ∧
      ∀ enough, 2 * ts.length ≤ enough + 3 + 2 * x.2.length → testBehind? enough a ts = some x := by
  unfold testBehind? at h
  split at h
  · refine ⟨?_, fun enough _ => h⟩
    obtain ⟨y, hy, h⟩ := Option.bind_eq_some_iff.mp h
    cases h
    exact Nat.lt_succ_of_lt (operand_shorter hy)
  · refine ⟨?_, fun enough _ => h⟩
    cases h
    exact Nat.lt_succ_of_lt (Nat.lt_succ_self _)
  · refine ⟨?_, fun enough _ => h⟩
    cases h
    exact Nat.lt_succ_of_lt (Nat.lt_succ_of_lt (Nat.lt_succ_self _))
  · obtain ⟨y, hy, h⟩ := Option.bind_eq_some_iff.mp h
    cases h
    obtain ⟨hlength, hagain⟩ := tested_steady a fuel _ y hy
    rw [List.length_cons]
    refine ⟨by dsimp only; omega, fun enough henough => ?_⟩
    dsimp only at henough
    exact Option.bind_eq_some_iff.mpr ⟨y, hagain enough (by omega), rfl⟩
  · obtain ⟨hlength, hagain⟩ := tested_steady a fuel _ x h
    refine ⟨by omega, fun enough henough => ?_⟩
    rw [testBehind_of_tested h]
    exact hagain enough henough

theorem test_steady (fuel : Nat) : Steady 3 test? fuel := by
  intro ts x h
  rw [test_eq] at h
  obtain ⟨⟨a, left⟩, ha, h⟩ := Option.bind_eq_some_iff.mp h
  have hshorter := operand_shorter ha
  obtain ⟨hlength, hagain⟩ := testBehind_steady a h
  dsimp only at hshorter hlength hagain
  refine ⟨by omega, fun enough henough => ?_⟩
  rw [test_eq]
  exact Option.bind_eq_some_iff.mpr ⟨(a, left), ha, hagain enough (by omega)⟩

/-- What follows the keyword of a level. -/
theorem behind_some {k : Keyword} {ts more : List Token} (h : behind? k ts = some more) :
    ts = .keyword k :: more := by
  unfold behind? at h
  split at h
  · rename_i hhead
    cases h
    cases ts with
    | nil => cases hhead
    | cons t ts => rw [Option.some.inj hhead, List.tail_cons]
  · cases h

theorem level_steady {c fuel : Nat} (hc : c ≤ 1) {k : Keyword}
    {build : Predicate → Predicate → Predicate}
    {below parse : Nat → List Token → Option (Predicate × List Token)}
    (hsucc : ∀ fuel, parse (fuel + 1) = level k build (below fuel) (parse fuel))
    (hbelow : Steady (c + 1) below fuel) (hparse : Steady c parse fuel) :
    Steady c parse (fuel + 1) := by
  intro ts x h
  rw [hsucc, level_eq] at h
  obtain ⟨⟨p, left⟩, hp, h⟩ := Option.bind_eq_some_iff.mp h
  obtain ⟨hlength, hagain⟩ := hbelow ts _ hp
  dsimp only [levelBehind?] at h hlength hagain
  cases hmore : behind? k left with
  | none =>
    rw [hmore] at h
    cases h
    have hnext (enough : Nat) : levelBehind? k build (parse enough) p left = some (p, left) := by
      rw [levelBehind?, hmore]
    refine ⟨hlength, fun enough henough => ?_⟩
    dsimp only at henough
    obtain ⟨enough, rfl⟩ : ∃ e, enough = e + 1 := ⟨enough - 1, by omega⟩
    rw [hsucc, level_eq]
    exact Option.bind_eq_some_iff.mpr ⟨_, hagain enough (by omega), hnext enough⟩
  | some more =>
    rw [hmore] at h
    obtain ⟨y, hy, h⟩ := Option.bind_eq_some_iff.mp h
    cases h
    obtain ⟨hlength', hagain'⟩ := hparse more y hy
    have hleft : left.length = more.length + 1 := congrArg List.length (behind_some hmore)
    have hnext {enough : Nat} (h : parse enough more = some y) :
        levelBehind? k build (parse enough) p left = some (build p y.1, y.2) := by
      rw [levelBehind?, hmore]
      exact Option.bind_eq_some_iff.mpr ⟨y, h, rfl⟩
    refine ⟨by dsimp only; omega, fun enough henough => ?_⟩
    dsimp only at henough
    obtain ⟨enough, rfl⟩ : ∃ e, enough = e + 1 := ⟨enough - 1, by omega⟩
    rw [hsucc, level_eq]
    exact Option.bind_eq_some_iff.mpr ⟨_, hagain enough (by omega), hnext (hagain' enough (by omega))⟩

/-- A unit needs no fuel for the first two of its tokens. -/
theorem unit_steady {fuel : Nat} (hdisjunction : Steady 0 disjunction? fuel)
    (hunit : Steady 2 unit? fuel) : Steady 2 unit? (fuel + 1) := by
  have htest {ts : List Token} {x : Predicate × List Token} (h : test? fuel ts = some x)
      (hagain : ∀ enough, unit? (enough + 1) ts = test? enough ts) :
      x.2.length + 2 ≤ ts.length ∧
        ∀ enough, 2 * ts.length ≤ enough + 2 + 2 * x.2.length → unit? enough ts = some x := by
    obtain ⟨hlength, hsteady⟩ := test_steady fuel ts x h
    refine ⟨hlength, fun enough henough => ?_⟩
    obtain ⟨enough, rfl⟩ : ∃ e, enough = e + 1 := ⟨enough - 1, by omega⟩
    rw [hagain]
    exact hsteady enough (by omega)
  intro ts x h
  cases ts with
  | nil => exact htest h fun _ => rfl
  | cons t ts =>
    cases t with
    | keyword k =>
      cases k with
      | not =>
        rw [unit_not] at h
        obtain ⟨y, hy, h⟩ := Option.bind_eq_some_iff.mp h
        cases h
        obtain ⟨hlength, hagain⟩ := hunit ts y hy
        rw [List.length_cons]
        refine ⟨by dsimp only; omega, fun enough henough => ?_⟩
        dsimp only at henough
        obtain ⟨enough, rfl⟩ : ∃ e, enough = e + 1 := ⟨enough - 1, by omega⟩
        rw [unit_not]
        exact Option.bind_eq_some_iff.mpr ⟨y, hagain enough (by omega), rfl⟩
      | _ => exact htest h fun _ => rfl
    | opening =>
      rw [unit_opening] at h
      obtain ⟨⟨p, left⟩, hp, h⟩ := Option.bind_eq_some_iff.mp h
      obtain ⟨hlength, hagain⟩ := hdisjunction ts _ hp
      cases left with
      | nil => cases h
      | cons t left =>
        cases t with
        | closing =>
          cases h
          dsimp only [List.length_cons] at hlength hagain ⊢
          refine ⟨by omega, fun enough henough => ?_⟩
          obtain ⟨enough, rfl⟩ : ∃ e, enough = e + 1 := ⟨enough - 1, by omega⟩
          rw [unit_opening]
          exact Option.bind_eq_some_iff.mpr ⟨_, hagain enough (by omega), rfl⟩
        | _ => cases h
    | _ => exact htest h fun _ => rfl

/-- Twice the number of tokens is enough fuel, on every level. -/
theorem levels_steady (fuel : Nat) :
    Steady 0 disjunction? fuel ∧ Steady 1 conjunction? fuel ∧ Steady 2 unit? fuel := by
  induction fuel with
  | zero =>
    exact ⟨fun _ _ h => (nomatch h), fun _ _ h => (nomatch h), fun _ _ h => (nomatch h)⟩
  | succ fuel ih =>
    obtain ⟨hdisjunction, hconjunction, hunit⟩ := ih
    exact ⟨level_steady (Nat.zero_le 1) disjunction_succ hconjunction hdisjunction,
      level_steady (Nat.le_refl 1) conjunction_succ hunit hconjunction,
      unit_steady hdisjunction hunit⟩

/-! ### A unit in parentheses -/

/-- The tokens as a condition of their own. -/
def whole? (ts : List Token) : Option Predicate :=
  match disjunction? (2 * ts.length) ts with
  | some (p, []) => some p
  | _ => none

theorem whole_of_disjunction {fuel : Nat} {ts : List Token} {p : Predicate}
    (h : disjunction? fuel ts = some (p, [])) : whole? ts = some p := by
  have hagain := ((levels_steady fuel).1 ts _ h).2 (2 * ts.length) (Nat.le_refl _)
  rw [whole?, hagain]

theorem disjunction_of_whole {fuel : Nat} {ts : List Token} {p : Predicate} (h : whole? ts = some p)
    (hfuel : 2 * ts.length ≤ fuel) : disjunction? fuel ts = some (p, []) := by
  unfold whole? at h
  split at h
  · rename_i q hq
    cases h
    exact ((levels_steady _).1 ts _ hq).2 fuel hfuel
  · cases h

/-- **Balanced tokens in parentheses are one unit**, whatever follows, if they are a condition of their
own; if they are not, they cannot be read. -/
theorem unit_enclosed {ts : List Token} (hts : Closes 0 ts) {fuel : Nat}
    (hfuel : 2 * ts.length ≤ fuel) (rest : List Token) :
    unit? (fuel + 1) (.opening :: (ts ++ .closing :: rest)) = (whole? ts).map fun p => (p, rest) := by
  obtain ⟨hlocal, hleft⟩ := (levels_local fuel).1 0 ts hts
  rw [unit_opening, hlocal]
  cases hx : disjunction? fuel ts with
  | none =>
    have hnone : whole? ts = none := by
      rw [← Option.not_isSome_iff_eq_none, Option.isSome_iff_exists]
      rintro ⟨p, hp⟩
      rw [disjunction_of_whole hp hfuel] at hx
      cases hx
    rw [hnone]
    rfl
  | some x =>
    obtain ⟨p, left⟩ := x
    cases left with
    | nil =>
      rw [whole_of_disjunction hx]
      rfl
    | cons t left =>
      have hnone : whole? ts = none := by
        rw [← Option.not_isSome_iff_eq_none, Option.isSome_iff_exists]
        rintro ⟨q, hq⟩
        rw [disjunction_of_whole hq hfuel] at hx
        cases hx
      -- What is left is balanced, so it does not start with a closing parenthesis.
      have hcloses : Closes 0 (t :: left) := hleft _ hx
      rw [hnone]
      cases t with
      | closing => cases hcloses
      | _ => rfl

section Reads
variable {Cell : Type} {w : Cells Cell} {row : Row Cell} {ts : List Token}

theorem reads_enclosed (hts : Closes 0 ts) {p : Predicate} (h : whole? ts = some p) :
    ReadsUnit w row (.opening :: (ts ++ [.closing])) (p.truth w row) := by
  intro fuel rest hfuel
  rw [List.length_cons, List.length_append, List.length_singleton] at hfuel
  obtain ⟨fuel, rfl⟩ : ∃ f, fuel = f + 1 := ⟨fuel - 1, by omega⟩
  refine ⟨p, ?_, rfl⟩
  rw [List.cons_append, List.append_assoc, List.singleton_append, unit_enclosed hts (by omega), h]
  rfl

theorem unread_enclosed (hts : Closes 0 ts) (h : whole? ts = none) (rest : List Token) (fuel : Nat)
    (hfuel : 2 * (Token.opening :: (ts ++ [.closing])).length ≤ fuel + 2) :
    unit? fuel (.opening :: (ts ++ [.closing]) ++ rest) = none := by
  rw [List.length_cons, List.length_append, List.length_singleton] at hfuel
  obtain ⟨fuel, rfl⟩ : ∃ f, fuel = f + 1 := ⟨fuel - 1, by omega⟩
  rw [List.cons_append, List.append_assoc, List.singleton_append, unit_enclosed hts (by omega), h]
  rfl

/-- A run that ends with a unit that cannot be read cannot be read. -/
theorem conjunction_unread (us : List (List Token × Truth)) (h : ∀ u ∈ us, ReadsUnit w row u.1 u.2)
    {rest : List Token}
    (hunread : ∀ fuel, 2 * ts.length ≤ fuel + 2 → unit? fuel (ts ++ rest) = none) (fuel : Nat)
    (hfuel : 2 * (joinBy .and (us.map Prod.fst ++ [ts])).length ≤ fuel + 1) :
    conjunction? fuel (joinBy .and (us.map Prod.fst ++ [ts]) ++ rest) = none := by
  induction us generalizing fuel with
  | nil =>
    cases fuel with
    | zero => rfl
    | succ fuel =>
      have hunit : unit? fuel (ts ++ rest) = none := hunread fuel hfuel
      rw [conjunction_succ, level_eq]
      show (unit? fuel (ts ++ rest)).bind _ = none
      rw [hunit]
      rfl
  | cons u us ih =>
    rw [List.forall_mem_cons] at h
    have hne : us.map Prod.fst ++ [ts] ≠ [] := by simp
    rw [List.map_cons, List.cons_append, length_joinBy_cons _ _ hne] at hfuel
    rw [List.map_cons, List.cons_append, joinBy_cons _ _ hne, List.append_assoc]
    cases fuel with
    | zero => rfl
    | succ fuel =>
      obtain ⟨p, hp, _⟩ := h.1 fuel (.keyword .and :: (joinBy .and (us.map Prod.fst ++ [ts]) ++ rest))
        (by omega)
      rw [conjunction_succ, level_eq]
      dsimp only
      rw [List.cons_append, hp, Option.bind_some, levelBehind?, behind?, if_pos List.head?_cons,
        List.tail_cons]
      dsimp only
      rw [ih h.2 fuel (by omega)]
      rfl

end Reads

end BucketQuery.Sql
