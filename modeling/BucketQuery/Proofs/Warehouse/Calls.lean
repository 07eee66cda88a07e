import BucketQuery.Proofs.Compile.Failure
import BucketQuery.Warehouse.Run

/-! What a warehouse is asked.

A call runs a query, or the query of a stored section. `Call.question` is what the warehouse is to be
asked for it, or the error that leaves nothing to ask; of the warehouse it knows the dialect and no
answer. One call asks its question and no other (`accounted_make`), and nothing that a call does changes
the dialect or the answers, so the same holds of each call among many. Main statement,
`calls_accounted`: the warehouse is asked the questions of the calls, in order, and a call fails with an
execution error exactly where the warehouse was asked and failed. -/
namespace BucketQuery.Warehouse

open Compile (Compiled Compiler)
open Section (Query Registry)
open Sql (Dialect)

/-! ### Calls -/

inductive Call where
  | query (compiler : Compiler) (q : Query)
  /-- The query of a section, by its name. -/
  | stored (compiler : Compiler) (registry : Registry) (name : String)

namespace Call

def make : Call → StateM Warehouse (Result Report)
  | .query compiler q => runQuery compiler q
  | .stored compiler registry name => runSection compiler registry name

/-- What the warehouse is to be asked, or why there is nothing to ask. -/
def question (d : Dialect) : Call → Result Compiled
  | .query compiler q => compiler.compile d q
  | .stored compiler registry name =>
    match registry.get? name with
    | none => .error (.invalid (.unknownSection name))
    | some s => compiler.compile d s.query

/-- The question, if there is one. -/
def question? (d : Dialect) (call : Call) : Option Compiled := (call.question d).toOption

end Call

variable (w : Warehouse)

/-- What calls come to, made one after the other. -/
def reports (calls : List Call) : List (Result Report) := ((calls.mapM Call.make).run w).1

/-- The warehouse when calls have been made. -/
def after (calls : List Call) : Warehouse := ((calls.mapM Call.make).run w).2

/-! ### One call -/

/-- What a call that found the warehouse as `w` and left it as `w'` has come to. -/
structure Accounted (w w' : Warehouse) (call : Call) (result : Result Report) : Prop where
  /-- Without a question nothing happens to the warehouse, and the reason is returned as it is. -/
  refused : ∀ e, call.question w.dialect = .error e →
    result = .error e ∧ w' = w ∧ ((∃ cause, e = .invalid cause) ∨ ∃ cause, e = .unsafeFilter cause)
  asked : ∀ c, call.question w.dialect = .ok c → w'.asked = w.asked ++ [c]
  answered : ∀ c rows, call.question w.dialect = .ok c → w.answers w.asked.length = .ok rows →
    result = .ok ⟨c, rows⟩
  /-- A failure of the warehouse is an execution error, if it is not one before, then of the table. -/
  failed : ∀ c e, call.question w.dialect = .ok c → w.answers w.asked.length = .error e →
    (e.isExecution = true → result = .error e) ∧
    (e.isExecution = false → ∃ e', result = .error e' ∧ e'.isExecution = true ∧
      e'.message = "execution error: query on " ++ c.table ++ " failed: " ++ e.message)
  sides : ∀ e, result = .error e → (e.isExecution = true ↔ w'.asked ≠ w.asked)

/-- What a call reports on an answer to its question. -/
def report (c : Compiled) : Result Rows → Result Report
  | .ok rows => .ok ⟨c, rows⟩
  | .error e => .error (executionError c e)

variable {w} {call : Call}

theorem execute_run (c : Compiled) :
    (execute c).run w =
      pure (w.answers w.asked.length, {w with asked := w.asked ++ [c]}) := rfl

theorem runQuery_run (compiler : Compiler) (q : Query) :
    (runQuery compiler q).run w = match compiler.compile w.dialect q with
      | .error e => (.error e, w)
      | .ok c => (report c (w.answers w.asked.length), {w with asked := w.asked ++ [c]}) := by
  rw [runQuery, StateT.run_bind, StateT.run_get, pure_bind]
  cases compiler.compile w.dialect q with
  | error e => rfl
  | ok c =>
    dsimp only
    rw [StateT.run_bind, execute_run, pure_bind]
    cases w.answers w.asked.length with
    | ok rows => rfl
    | error e => rfl

theorem make_run (w : Warehouse) (call : Call) :
    call.make.run w = match call.question w.dialect with
      | .error e => (.error e, w)
      | .ok c => (report c (w.answers w.asked.length), {w with asked := w.asked ++ [c]}) := by
  cases call with
  | query compiler q => rw [Call.make, Call.question, runQuery_run]
  | stored compiler registry name =>
    rw [Call.make, runSection, Call.question]
    cases registry.get? name with
    | none => rfl
    | some s =>
      dsimp only
      rw [runQuery_run]

/-- What keeps a call from asking is the section's absence or what refuses its query. -/
theorem question_error {d : Dialect} {e : Error} (h : call.question d = .error e) :
    (∃ cause, e = .invalid cause) ∨ ∃ cause, e = .unsafeFilter cause := by
  have hcompile {compiler : Compiler} {q : Query} (h : compiler.compile d q = .error e) :
      (∃ cause, e = .invalid cause) ∨ ∃ cause, e = .unsafeFilter cause := by
    cases (Compile.compileWith_eq_error_iff ..).mp h with
    | unknownInterval => exact .inl ⟨_, rfl⟩
    | unsafeText => exact .inr ⟨_, rfl⟩
    | textDisabled => exact .inl ⟨_, rfl⟩
  cases call with
  | query compiler q => exact hcompile h
  | stored compiler registry name =>
    rw [Call.question] at h
    split at h
    · cases h
      exact .inl ⟨_, rfl⟩
    · exact hcompile h

theorem executionError_isExecution (c : Compiled) (e : Error) :
    (executionError c e).isExecution = true := by
  unfold executionError
  split
  · assumption
  · rfl

theorem report_error {c : Compiled} {answer : Result Rows} {e : Error}
    (h : report c answer = .error e) : e.isExecution = true := by
  cases answer with
  | ok rows => cases h
  | error cause =>
    cases h
    exact executionError_isExecution c cause

/-- One call asks its question, and nothing else. -/
theorem accounted_make (w : Warehouse) (call : Call) :
    Accounted w (call.make.run w).2 call (call.make.run w).1 := by
  rw [make_run]
  cases h : call.question w.dialect with
  | error e =>
    have hside := question_error h
    have hexec : e.isExecution = false := by rcases hside with ⟨cause, rfl⟩ | ⟨cause, rfl⟩ <;> rfl
    refine ⟨fun e' he => ?_, fun c hc => ?_, fun c rows hc _ => ?_, fun c e' hc _ => ?_, fun e' he => ?_⟩
    · cases h.symm.trans he
      exact ⟨rfl, rfl, hside⟩
    · cases h.symm.trans hc
    · cases h.symm.trans hc
    · cases h.symm.trans hc
    · cases he
      simp [hexec]
  | ok c =>
    refine ⟨fun e he => ?_, fun c' hc => ?_, fun c' rows hc hrows => ?_, fun c' e hc he => ?_,
      fun e he => ?_⟩
    · cases h.symm.trans he
    · cases h.symm.trans hc
      rfl
    · cases h.symm.trans hc
      dsimp only
      rw [hrows, report]
    · cases h.symm.trans hc
      dsimp only
      rw [he, report, executionError]
      refine ⟨fun hexec => ?_, fun hexec => ⟨.queryFailed c.table e, ?_, rfl, rfl⟩⟩
      · rw [if_pos hexec]
      · rw [hexec, if_neg Bool.false_ne_true]
    · exact iff_of_true (report_error he) (by simp)

/-! ### Many calls -/

theorem after_cons (w : Warehouse) (call : Call) (rest : List Call) :
    w.after (call :: rest) = (call.make.run w).2.after rest := by
  rw [after, List.mapM_cons]
  rfl

theorem reports_cons (w : Warehouse) (call : Call) (rest : List Call) :
    w.reports (call :: rest) = (call.make.run w).1 :: (call.make.run w).2.reports rest := by
  rw [reports, List.mapM_cons]
  rfl

theorem after_append (w : Warehouse) (before later : List Call) :
    w.after (before ++ later) = (w.after before).after later := by
  induction before generalizing w with
  | nil => rfl
  | cons call before ih => rw [List.cons_append, after_cons, ih, ← after_cons]

theorem reports_append (w : Warehouse) (before later : List Call) :
    w.reports (before ++ later) = w.reports before ++ (w.after before).reports later := by
  induction before generalizing w with
  | nil => rfl
  | cons call before ih =>
    rw [List.cons_append, reports_cons, reports_cons, ih, after_cons, List.cons_append]

theorem reports_length (w : Warehouse) (calls : List Call) :
    (w.reports calls).length = calls.length := by
  induction calls generalizing w with
  | nil => rfl
  | cons call rest ih => rw [reports_cons, List.length_cons, ih, List.length_cons]

/-- What one call does to a warehouse. -/
theorem make_after (w : Warehouse) (call : Call) :
    (call.make.run w).2 = {w with asked := w.asked ++ (call.question? w.dialect).toList} := by
  rw [make_run, Call.question?]
  cases call.question w.dialect with
  | error e => simp [Except.toOption]
  | ok c => rfl

/-- The questions of calls are asked in order, and nothing else happens to the warehouse. -/
theorem after_eq (w : Warehouse) (calls : List Call) :
    w.after calls = {w with asked := w.asked ++ calls.filterMap (Call.question? w.dialect)} := by
  induction calls generalizing w with
  | nil =>
    show w = _
    simp
  | cons call rest ih =>
    rw [after_cons, make_after, ih]
    dsimp only
    rw [List.append_assoc]
    cases hq : call.question? w.dialect with
    | none => rw [List.filterMap_cons_none hq]; rfl
    | some c => rw [List.filterMap_cons_some hq]; rfl

/-- **Every call is accounted for.** A warehouse is asked the questions of the calls, in the order of the
calls, once each, and its dialect and answers stay as they are. Each call that was made has a report,
which is what the warehouse as it stood at the time makes of the call. -/
theorem calls_accounted (w : Warehouse) (calls : List Call) :
    w.after calls = {w with asked := w.asked ++ calls.filterMap (Call.question? w.dialect)} ∧
    (w.reports calls).length = calls.length ∧
    ∀ before call later, calls = before ++ call :: later →
      ∃ result, (w.reports calls)[before.length]? = some result ∧
        Accounted (w.after before) (w.after (before ++ [call])) call result := by
  refine ⟨after_eq w calls, reports_length w calls, ?_⟩
  rintro before call later rfl
  refine ⟨(call.make.run (w.after before)).1, ?_, ?_⟩
  · rw [reports_append, reports_cons, ← reports_length w before,
      List.getElem?_append_right (Nat.le_refl _), Nat.sub_self, List.getElem?_cons_zero]
  · rw [after_append, after_cons]
    exact accounted_make (w.after before) call

/-- It fails at first, and then finds no rows. -/
def brokenAtFirst : Warehouse where
  dialect := .duckdb
  answers i := if i = 0 then .error (.io "broken pipe") else .ok ⟨[], []⟩

/-- One section, which shows all days. -/
def onlyVolume : Registry := ⟨[⟨"volume", none, none, {}⟩], List.pairwise_singleton ..⟩

/-- A section that does not exist, a query, condition text where none is allowed, and a section. -/
def mixedCalls : List Call := [
  .stored .default onlyVolume "sla", .query .default {},
  .query .default (({} : Query).withText "inbound > 10"), .stored .default onlyVolume "volume"]

theorem mixed_calls_accounted :
    ∃ c e, (brokenAtFirst.after mixedCalls).asked = [c, c] ∧
      (brokenAtFirst.reports mixedCalls)[0]? = some (.error (.invalid (.unknownSection "sla"))) ∧
      (brokenAtFirst.reports mixedCalls)[1]? = some (.error e) ∧
      e.message = "execution error: query on stats_daily failed: io error: broken pipe" ∧
      (brokenAtFirst.reports mixedCalls)[2]? = some (.error (.invalid .rawFiltersDisabled)) ∧
      (brokenAtFirst.reports mixedCalls)[3]? = some (.ok ⟨c, [], []⟩) := by
  obtain ⟨c, hc, htable⟩ : ∃ c, Compiler.default.compile .duckdb {} = .ok c ∧
      c.table = "stats_daily" := ⟨_, rfl, rfl⟩
  have hunknown : Call.question .duckdb (.stored .default onlyVolume "sla") =
      .error (.invalid (.unknownSection "sla")) := rfl
  have hdisabled : Call.question .duckdb (.query .default (({} : Query).withText "inbound > 10")) =
      .error (.invalid .rawFiltersDisabled) := by
    have htrim : Text.trim "inbound > 10" = "inbound > 10" := by decide +kernel
    exact (Compile.compileWith_eq_error_iff ..).mpr (.textDisabled (fun h => by cases h)
      ⟨_, rfl, htrim, by decide⟩ (by decide +kernel) rfl)
  have hquery : Call.question .duckdb (.query .default {}) = .ok c := hc
  have hvolume : Call.question .duckdb (.stored .default onlyVolume "volume") = .ok c := hc
  obtain ⟨-, -, hcalls⟩ := calls_accounted brokenAtFirst mixedCalls
  obtain ⟨r₀, hr₀, h₀⟩ := hcalls [] _ _ rfl
  obtain ⟨r₁, hr₁, h₁⟩ := hcalls [_] _ _ rfl
  obtain ⟨r₂, hr₂, h₂⟩ := hcalls [_, _] _ _ rfl
  obtain ⟨r₃, hr₃, h₃⟩ := hcalls [_, _, _] _ _ rfl
  -- The first answer is for the second call, and the next one for the last.
  have hasked (before : List Call) :
      (brokenAtFirst.after before).asked = before.filterMap (Call.question? .duckdb) := by
    rw [after_eq]
    rfl
  have hbroken : (brokenAtFirst.after [.stored .default onlyVolume "sla"]).answers
      (brokenAtFirst.after [.stored .default onlyVolume "sla"]).asked.length =
        .error (.io "broken pipe") := by
    rw [hasked, after_eq]
    rfl
  have hrows : (brokenAtFirst.after (mixedCalls.take 3)).answers
      (brokenAtFirst.after (mixedCalls.take 3)).asked.length = .ok ⟨[], []⟩ := by
    rw [hasked, after_eq]
    simp only [mixedCalls, List.take, Call.question?, hunknown, hdisabled, hquery, Except.toOption,
      List.filterMap]
    rfl
  obtain ⟨e, he, -, hmessage⟩ := (h₁.failed c _ hquery hbroken).2 rfl
  rw [htable] at hmessage
  refine ⟨c, e, ?_, ?_, ?_, hmessage, ?_, ?_⟩
  · rw [hasked]
    simp only [mixedCalls, Call.question?, hunknown, hdisabled, hquery, hvolume, Except.toOption,
      List.filterMap]
  · rw [(h₀.refused _ hunknown).1] at hr₀
    exact hr₀
  · rw [he] at hr₁
    exact hr₁
  · rw [(h₂.refused _ hdisabled).1] at hr₂
    exact hr₂
  · rw [h₃.answered c _ hvolume hrows] at hr₃
    exact hr₃

end BucketQuery.Warehouse
