import BucketQuery.Filter.Operator

/-! Three truth values, and what a row of siblings means.

SQL decides with a third truth value for what is not known. Siblings are joined by connectives
without parentheses, and AND binds tighter than OR: `runs` cuts them in front of every OR, and
`joined` is an OR of what the runs mean, each an AND. -/
namespace BucketQuery

open BucketQuery.Filter (Connective)

namespace Sql

inductive Truth where
  | true
  | false
  | unknown
deriving DecidableEq, Repr

namespace Truth

def ofBool : Bool → Truth
  | .true => true
  | .false => false

def not : Truth → Truth
  | true => false
  | false => true
  | unknown => unknown

/-- False if one side is, whatever the other. -/
def and : Truth → Truth → Truth
  | false, _ | _, false => false
  | true, true => true
  | _, _ => unknown

/-- True if one side is, whatever the other. -/
def or : Truth → Truth → Truth
  | true, _ | _, true => true
  | false, false => false
  | _, _ => unknown

def all : List Truth → Truth
  | [] => true
  | t :: rest => t.and (all rest)

def any : List Truth → Truth
  | [] => false
  | t :: rest => t.or (any rest)

@[simp] theorem true_and (t : Truth) : true.and t = t := by cases t <;> rfl

@[simp] theorem and_true (t : Truth) : t.and true = t := by cases t <;> rfl

theorem and_comm (s t : Truth) : s.and t = t.and s := by cases s <;> cases t <;> rfl

@[simp] theorem or_false (t : Truth) : t.or false = t := by cases t <;> rfl

theorem not_not (t : Truth) : t.not.not = t := by cases t <;> rfl

theorem ofBool_not (b : Bool) : ofBool (!b) = (ofBool b).not := by cases b <;> rfl

theorem and_assoc (s t u : Truth) : (s.and t).and u = s.and (t.and u) := by
  cases s <;> cases t <;> cases u <;> rfl

theorem all_append (as bs : List Truth) : all (as ++ bs) = (all as).and (all bs) := by
  induction as with
  | nil => rw [List.nil_append, all, true_and]
  | cons t as ih => rw [List.cons_append, all, ih, all, and_assoc]

theorem and_eq_true {s t : Truth} : s.and t = true ↔ s = true ∧ t = true := by
  cases s <;> cases t <;> decide

theorem or_eq_true {s t : Truth} : s.or t = true ↔ s = true ∨ t = true := by
  cases s <;> cases t <;> decide

theorem ofBool_eq_true {b : Bool} : ofBool b = true ↔ b = .true := by
  cases b <;> decide

theorem and_known {s t : Truth} : s ≠ unknown → t ≠ unknown → s.and t ≠ unknown := by
  cases s <;> cases t <;> decide

theorem or_known {s t : Truth} : s ≠ unknown → t ≠ unknown → s.or t ≠ unknown := by
  cases s <;> cases t <;> decide

/-- A truth that is known is that of any condition it tells. -/
theorem eq_ofBool_decide {t : Truth} (known : t ≠ unknown) {p : Prop} [Decidable p]
    (h : t = true ↔ p) : t = ofBool (decide p) := by
  by_cases hp : p
  · rw [decide_eq_true hp]
    exact h.mpr hp
  · rw [decide_eq_false hp]
    cases t with
    | true => exact absurd (h.mp rfl) hp
    | false => rfl
    | unknown => exact absurd rfl known

theorem all_eq_true {ts : List Truth} : all ts = true ↔ ∀ t ∈ ts, t = true := by
  induction ts with
  | nil => exact iff_of_true rfl fun t ht => absurd ht List.not_mem_nil
  | cons t ts ih => rw [all, and_eq_true, ih, List.forall_mem_cons]

end Truth

/-! ### Siblings -/

section Runs
variable {α β : Type}

/-- The runs of siblings when some of the first run have been met. -/
def runsFrom (met : List α) : List (Connective × α) → List (List α)
  | [] => [met]
  | (.and, a) :: rest => runsFrom (met ++ [a]) rest
  | (.or, a) :: rest => met :: runsFrom [a] rest

/-- Siblings cut in front of every OR. The connective of the first joins it to nothing. -/
def runs : List (Connective × α) → List (List α)
  | [] => []
  | (_, a) :: rest => runsFrom [a] rest

theorem runsFrom_map (f : α → β) (met : List α) (items : List (Connective × α)) :
    runsFrom (met.map f) (items.map fun item => (item.1, f item.2)) =
      (runsFrom met items).map (List.map f) := by
  induction items generalizing met with
  | nil => rfl
  | cons item rest ih =>
    obtain ⟨c, a⟩ := item
    cases c with
    | and =>
      have h := ih (met ++ [a])
      rw [List.map_append] at h
      exact h
    | or => exact congrArg (met.map f :: ·) (ih [a])

theorem runs_map (f : α → β) (items : List (Connective × α)) :
    runs (items.map fun item => (item.1, f item.2)) = (runs items).map (List.map f) := by
  cases items with
  | nil => rfl
  | cons item rest => exact runsFrom_map f [item.2] rest

theorem runsFrom_ne_nil (met : List α) (items : List (Connective × α)) : runsFrom met items ≠ [] := by
  induction items generalizing met with
  | nil => exact List.cons_ne_nil _ _
  | cons item rest ih =>
    obtain ⟨c, a⟩ := item
    cases c with
    | and => exact ih _
    | or => exact List.cons_ne_nil _ _

theorem runs_ne_nil {items : List (Connective × α)} (h : items ≠ []) : runs items ≠ [] := by
  cases items with
  | nil => exact absurd rfl h
  | cons item rest => exact runsFrom_ne_nil _ _

/-- A run is not empty, and its members have been met or are among the siblings. -/
theorem of_mem_runsFrom {met run : List α} {items : List (Connective × α)} (hmet : met ≠ [])
    (h : run ∈ runsFrom met items) : run ≠ [] ∧ ∀ a ∈ run, a ∈ met ∨ ∃ item ∈ items, item.2 = a := by
  induction items generalizing met with
  | nil =>
    rw [List.mem_singleton.mp h]
    exact ⟨hmet, fun a ha => .inl ha⟩
  | cons item rest ih =>
    obtain ⟨c, a⟩ := item
    cases c with
    | and =>
      obtain ⟨hne, hmem⟩ := ih (by simp) h
      refine ⟨hne, fun b hb => ?_⟩
      rcases hmem b hb with hb | ⟨item, hitem, rfl⟩
      · rcases List.mem_append.mp hb with hb | hb
        · exact .inl hb
        · rw [List.mem_singleton.mp hb]
          exact .inr ⟨_, List.mem_cons_self, rfl⟩
      · exact .inr ⟨item, List.mem_cons_of_mem _ hitem, rfl⟩
    | or =>
      rcases List.mem_cons.mp h with rfl | h
      · exact ⟨hmet, fun b hb => .inl hb⟩
      · obtain ⟨hne, hmem⟩ := ih (List.cons_ne_nil _ _) h
        refine ⟨hne, fun b hb => .inr ?_⟩
        rcases hmem b hb with hb | ⟨item, hitem, rfl⟩
        · rw [List.mem_singleton.mp hb]
          exact ⟨_, List.mem_cons_self, rfl⟩
        · exact ⟨item, List.mem_cons_of_mem _ hitem, rfl⟩

theorem of_mem_runs {run : List α} {items : List (Connective × α)} (h : run ∈ runs items) :
    run ≠ [] ∧ ∀ a ∈ run, ∃ item ∈ items, item.2 = a := by
  cases items with
  | nil => cases h
  | cons item rest =>
    obtain ⟨hne, hmem⟩ := of_mem_runsFrom (List.cons_ne_nil _ _) h
    refine ⟨hne, fun a ha => ?_⟩
    rcases hmem a ha with ha | ⟨other, hother, rfl⟩
    · rw [List.mem_singleton.mp ha]
      exact ⟨item, List.mem_cons_self, rfl⟩
    · exact ⟨other, List.mem_cons_of_mem _ hother, rfl⟩

end Runs

/-- What siblings mean together. -/
def joined (items : List (Connective × Truth)) : Truth := Truth.any ((runs items).map Truth.all)

theorem joined_singleton (c : Connective) (t : Truth) : joined [(c, t)] = t := by
  show (t.and Truth.true).or Truth.false = t
  rw [Truth.or_false, Truth.and_true]

-- An OR of a truth and a run that is false.
example : joined [(.and, .true), (.or, .false), (.and, .false)] = .true := by decide

end Sql

end BucketQuery
