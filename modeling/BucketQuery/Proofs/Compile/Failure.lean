import BucketQuery.Proofs.Compile.Account
import BucketQuery.Proofs.Text.Blank

/-! When a compile fails, and with what.

Three things fail a compile, and the first of them that applies is the one reported: an interval that no
bucket size goes by, where that is an error; condition text with a forbidden token, allowed or not; and
condition text where none is allowed. `Refused` lists them as the request shows them. Main statement,
`fails_exactly`: a compile fails with what refuses the request and with nothing else, whatever the
dialect and mode, so a filter tree never fails one, and how strict a compiler is matters for unknown
intervals alone. -/
namespace BucketQuery

open Section (Query)

/-! ### What a request shows -/

namespace Section.Query

/-- The interval, blank space around it aside, is a word that no bucket size goes by. -/
def UnknownInterval (q : Query) (token : String) : Prop :=
  q.timeInterval.map Text.trim = some token ∧ token ≠ "" ∧
    ∀ g : Granularity, Text.sameLetters g.text token = false

/-- There is condition text, blank space around it aside. -/
def GivesText (q : Query) (text : String) : Prop :=
  ∃ given, q.advanced = some (.text given) ∧ Text.trim given = text ∧ text ≠ ""

end Section.Query

theorem Granularity.ofText?_eq_none_iff (token : String) :
    ofText? token = none ↔ ∀ g : Granularity, Text.sameLetters g.text (Text.trim token) = false := by
  rw [ofText?, List.find?_eq_none]
  refine ⟨fun h g => Bool.eq_false_iff.mpr (h g ?_), fun h g _ => Bool.eq_false_iff.mp (h g)⟩
  cases g <;> simp only [all, List.mem_cons, true_or, or_true]

namespace Compile

open Sql (Dialect LiteralMode)

/-- What refuses a request, each cause only where none before it applies. -/
inductive Refused (s : CompilerSettings) (q : Query) : Error → Prop where
  | unknownInterval {token : String} (strict : s.strictGranularity = true)
    (unknown : q.UnknownInterval token) : Refused s q (.invalid (.unknownInterval token))
  /-- Whether condition text is allowed does not matter here. -/
  | unsafeText {text hit : String}
    (interval : s.strictGranularity = true → ∀ token, ¬ q.UnknownInterval token)
    (given : q.GivesText text) (forbidden : Sql.forbidden? text = some hit) :
    Refused s q (.unsafeFilter (.forbidden hit))
  | textDisabled {text : String}
    (interval : s.strictGranularity = true → ∀ token, ¬ q.UnknownInterval token)
    (given : q.GivesText text) (safe : Sql.forbidden? text = none)
    (disabled : s.allowRawFilters = false) : Refused s q (.invalid .rawFiltersDisabled)

/-! ### The interval -/

theorem granularityOf_unknown_iff (q : Query) (token : String) :
    (granularityOf q.timeInterval).2 = some token ↔ q.UnknownInterval token := by
  unfold granularityOf Query.UnknownInterval
  cases q.timeInterval with
  | none => simp [Text.trim, Text.trimStart, Text.trimEnd]
  | some given =>
    have hword := Granularity.ofText?_eq_none_iff (Text.trim given)
    rw [Text.trim_trim] at hword
    simp only [Option.getD_some, Option.map_some, Option.some.injEq]
    split
    · rename_i hempty
      rw [String.isEmpty_iff] at hempty
      constructor
      · intro h
        cases h
      · rintro ⟨h, hne, -⟩
        exact absurd (h.symm.trans hempty) hne
    · rename_i hne
      rw [String.isEmpty_iff] at hne
      split
      · rename_i g hg
        constructor
        · intro h
          cases h
        · rintro ⟨rfl, -, hnone⟩
          rw [hword.mpr hnone] at hg
          cases hg
      · rename_i hnone
        refine ⟨fun h => ?_, fun h => congrArg some h.1⟩
        cases h
        exact ⟨rfl, hne, hword.mp hnone⟩

section Interval
variable {strict : Bool} {q : Query}

theorem resolveGranularity_eq_error_iff {e : Error} :
    resolveGranularity strict q.timeInterval = .error e ↔
      strict = true ∧ ∃ token, q.UnknownInterval token ∧ e = .invalid (.unknownInterval token) := by
  simp only [resolveGranularity_eq, ← granularityOf_unknown_iff]
  cases (granularityOf q.timeInterval).2 with
  | none => simp
  | some token => cases strict <;> simp [eq_comm]

theorem resolveGranularity_ok_iff :
    (∃ r, resolveGranularity strict q.timeInterval = .ok r) ↔
      (strict = true → ∀ token, ¬ q.UnknownInterval token) := by
  simp only [resolveGranularity_eq, ← granularityOf_unknown_iff]
  cases (granularityOf q.timeInterval).2 with
  | none => simp
  | some token => cases strict <;> simp

end Interval

/-! ### The condition text -/

section Text
variable {s : CompilerSettings} {q : Query}

theorem not_givesText_of_noText (h : q.NoText) (text : String) : ¬ q.GivesText text := by
  rintro ⟨given, hgiven, -⟩
  exact h given hgiven

theorem advanced_eq_error_iff {e : Error} :
    advanced s q.advanced = .error e ↔ ∃ text, q.GivesText text ∧
      ((∃ hit, Sql.forbidden? text = some hit ∧ e = .unsafeFilter (.forbidden hit)) ∨
        Sql.forbidden? text = none ∧ s.allowRawFilters = false ∧ e = .invalid .rawFiltersDisabled) := by
  by_cases hno : q.NoText
  · -- Neither a tree nor no filter at all is refused.
    have hok : ∃ found, advanced s q.advanced = .ok found := by
      cases hq : q.advanced with
      | none => exact ⟨_, rfl⟩
      | some given =>
        cases given with
        | tree t => exact ⟨_, rfl⟩
        | text given => exact absurd hq (hno given)
    obtain ⟨found, hfound⟩ := hok
    rw [hfound]
    constructor
    · intro h
      cases h
    · rintro ⟨text, htext, -⟩
      exact absurd htext (not_givesText_of_noText hno text)
  · obtain ⟨given, hgiven⟩ : ∃ given, q.advanced = some (.text given) := by
      simpa only [Query.NoText, ne_eq, not_forall, not_not] using hno
    have hgives (text : String) : q.GivesText text ↔ Text.trim given = text ∧ text ≠ "" := by
      simp only [Query.GivesText, hgiven, Option.some.injEq, Section.Advanced.text.injEq, exists_eq_left']
    simp only [hgives, hgiven, advanced_text, and_assoc, exists_eq_left']
    by_cases hempty : Text.trim given = ""
    · simp [hempty]
    · rw [if_neg (by rw [String.isEmpty_iff]; exact hempty)]
      cases hforbidden : Sql.forbidden? (Text.trim given) with
      | some hit =>
        simp only [ne_eq, hempty, not_false_eq_true, true_and, Except.error.injEq, Option.some.injEq,
          exists_eq_left', reduceCtorEq, false_and, or_false]
        exact eq_comm
      | none =>
        cases s.allowRawFilters with
        | true => simp
        | false =>
          simp only [ne_eq, hempty, not_false_eq_true, true_and, Bool.false_eq_true, if_false,
            Except.error.injEq, reduceCtorEq, false_and, exists_false, false_or]
          exact eq_comm

end Text

/-! ### Compiles -/

/-- A compile fails with what refuses the request, and with nothing else. -/
theorem compileWith_eq_error_iff (c : Compiler) (q : Query) (mode : LiteralMode) (d : Dialect)
    (e : Error) : c.compileWith mode d q = .error e ↔ Refused c.settings q e := by
  have hplan : c.plan q = .error e ↔
      resolveGranularity c.settings.strictGranularity q.timeInterval = .error e ∨
        (∃ r, resolveGranularity c.settings.strictGranularity q.timeInterval = .ok r) ∧
          advanced c.settings q.advanced = .error e := by
    rw [Compiler.plan, bind_eq_error_iff]
    refine or_congr_right ⟨?_, ?_⟩
    · rintro ⟨r, hr, h⟩
      rcases bind_eq_error_iff.mp h with h | ⟨found, -, h⟩
      · exact ⟨⟨r, hr⟩, h⟩
      · cases h
    · rintro ⟨⟨r, hr⟩, h⟩
      exact ⟨r, hr, bind_eq_error_iff.mpr (.inl h)⟩
  rw [compileWith_eq, map_eq_error_iff, hplan, resolveGranularity_eq_error_iff,
    resolveGranularity_ok_iff, advanced_eq_error_iff]
  constructor
  · rintro (⟨hstrict, token, hunknown, rfl⟩ |
      ⟨hinterval, text, htext, ⟨hit, hhit, rfl⟩ | ⟨hsafe, hdisabled, rfl⟩⟩)
    · exact .unknownInterval hstrict hunknown
    · exact .unsafeText hinterval htext hhit
    · exact .textDisabled hinterval htext hsafe hdisabled
  · intro h
    cases h with
    | unknownInterval hstrict hunknown => exact .inl ⟨hstrict, _, hunknown, rfl⟩
    | unsafeText hinterval htext hhit => exact .inr ⟨hinterval, _, htext, .inl ⟨_, hhit, rfl⟩⟩
    | textDisabled hinterval htext hsafe hdisabled =>
      exact .inr ⟨hinterval, _, htext, .inr ⟨hsafe, hdisabled, rfl⟩⟩

/-- A request that gives no condition text is refused for its interval only. -/
theorem strict_of_refused {s : CompilerSettings} {q : Query} {e : Error} (hq : q.NoText)
    (h : Refused s q e) : s.strictGranularity = true := by
  cases h with
  | unknownInterval hstrict => exact hstrict
  | unsafeText _ htext => exact absurd htext (not_givesText_of_noText hq _)
  | textDisabled _ htext => exact absurd htext (not_givesText_of_noText hq _)

/-! ### Warnings -/

/-- What is said of the dates, the columns and the grouping key is about neither the interval nor the
filter. -/
theorem requestWarnings_kind (q : Query) :
    ∀ w ∈ requestWarnings q, (∃ role name, w = .invalidIdentifier role name) ∨ ∃ start finish, w = .invertedDates start finish := by
  have hdates : ∀ w ∈ datesWarning q, ∃ start finish, w = .invertedDates start finish := by
    intro w hw
    unfold datesWarning at hw
    split at hw
    · split at hw
      · exact ⟨_, _, List.mem_singleton.mp hw⟩
      · cases hw
    · cases hw
  have hcolumns : ∀ w ∈ (projection q.columns).2, ∃ role name, w = .invalidIdentifier role name := by
    intro w hw
    obtain ⟨name, -, rfl⟩ := List.mem_map.mp hw
    exact ⟨.column, name, rfl⟩
  have hkey : ∀ w ∈ (groupKey q.groupBy).2, ∃ role name, w = .invalidIdentifier role name := by
    intro w hw
    unfold groupKey at hw
    dsimp only at hw
    split at hw
    · cases hw
    · split at hw
      · cases hw
      · exact ⟨_, _, List.mem_singleton.mp hw⟩
  intro w hw
  rcases List.mem_append.mp hw with hw | hw
  · rcases List.mem_append.mp hw with hw | hw
    · exact .inr (hdates w hw)
    · exact .inl (hcolumns w hw)
  · exact .inl (hkey w hw)

/-- What is said of the filter is about dropped nodes. -/
theorem filterWarnings_kind (deepest : Nat) (given : Option Section.Advanced) :
    ∀ w ∈ filterWarnings deepest given, ∃ path why, w = .dropped path why := by
  intro w hw
  cases given with
  | none => cases hw
  | some given =>
    cases given with
    | text given => cases hw
    | tree t =>
      rw [filterWarnings, tree_warnings] at hw
      obtain ⟨path, _, why, hw, _⟩ := dropped_of_warning hw
      exact ⟨path, why, hw⟩

/-- A compile warns of an interval that it let pass, and of no other. -/
theorem unknownGranularity_mem_iff {c : Compiler} {q : Query} {mode : LiteralMode} {d : Dialect}
    {out : Compiled} (h : c.compileWith mode d q = .ok out) (token : String) :
    .unknownGranularity token ∈ out.warnings ↔ q.UnknownInterval token := by
  obtain ⟨p, hp, rfl⟩ := compiled_of_ok c q h
  obtain ⟨-, -, -, hwarnings⟩ := plan_parts c q hp
  have hdropped : .unknownGranularity token ∉ filterWarnings c.settings.maxGroupDepth q.advanced := by
    intro hw
    obtain ⟨path, why, hw⟩ := filterWarnings_kind _ _ _ hw
    cases hw
  have hrequest : .unknownGranularity token ∉ requestWarnings q := by
    intro hw
    rcases requestWarnings_kind q _ hw with ⟨role, name, hw⟩ | ⟨start, finish, hw⟩
    · cases hw
    · cases hw
  rw [← granularityOf_unknown_iff]
  simp only [Plan.compiled, hwarnings, intervalWarnings, List.mem_append, hdropped, hrequest, or_false,
    Option.mem_toList, Option.map_eq_some_iff, Warning.unknownGranularity.injEq, exists_eq_right]

/-! ### Strict compilers -/

/-- The compiler with an unknown interval an error, or not. -/
def Compiler.withStrict (c : Compiler) (strict : Bool) : Compiler :=
  {c with settings := {c.settings with strictGranularity := strict}}

/-- Strictness matters for unknown intervals alone. -/
theorem withStrict_eq_iff (c : Compiler) (q : Query) (mode : LiteralMode) (d : Dialect) :
    (c.withStrict true).compileWith mode d q = (c.withStrict false).compileWith mode d q ↔
      ∀ token, ¬ q.UnknownInterval token := by
  constructor
  · intro h token hunknown
    have hstrict : (c.withStrict true).compileWith mode d q = .error (.invalid (.unknownInterval token)) :=
      (compileWith_eq_error_iff ..).mpr (.unknownInterval rfl hunknown)
    have hlenient := (compileWith_eq_error_iff ..).mp (h.symm.trans hstrict)
    cases hlenient with
    | unknownInterval hfalse _ => cases hfalse
  · intro hknown
    have hnone : (granularityOf q.timeInterval).2 = none := by
      rw [Option.eq_none_iff_forall_ne_some]
      exact fun token h => hknown token ((granularityOf_unknown_iff q token).mp h)
    have hresolve : resolveGranularity true q.timeInterval = resolveGranularity false q.timeInterval := by
      rw [resolveGranularity_eq, resolveGranularity_eq, hnone]
    show (resolveGranularity true q.timeInterval >>= _) = (resolveGranularity false q.timeInterval >>= _)
    rw [hresolve]
    rfl

/-- **When a compile fails, and with what.** A compile fails exactly with what refuses the request, in
every dialect and mode alike. A request that gives no condition text always compiles where unknown
intervals pass. Whether they do makes a difference for these alone, and a compile that lets one pass
warns of it. -/
theorem fails_exactly (c : Compiler) (q : Query) :
    (∀ mode d e, c.compileWith mode d q = .error e ↔ Refused c.settings q e) ∧
    (∀ mode mode' d d', (c.compileWith mode d q).map (fun _ => ()) =
      (c.compileWith mode' d' q).map fun _ => ()) ∧
    (c.settings.strictGranularity = false → q.NoText →
      ∀ mode d, ∃ out, c.compileWith mode d q = .ok out) ∧
    ∀ mode d,
      ((c.withStrict true).compileWith mode d q = (c.withStrict false).compileWith mode d q ↔
        ∀ token, ¬ q.UnknownInterval token) ∧
      ∀ out, (c.withStrict false).compileWith mode d q = .ok out →
        ∀ token, .unknownGranularity token ∈ out.warnings ↔ q.UnknownInterval token := by
  have houtcome (mode : LiteralMode) (d : Dialect) :
      (c.compileWith mode d q).map (fun _ => ()) = (c.plan q).map fun _ => () := by
    rw [compileWith_eq]
    cases c.plan q <;> rfl
  refine ⟨compileWith_eq_error_iff c q, fun mode mode' d d' => ?_, fun hlenient hq mode d => ?_,
    fun mode d => ⟨withStrict_eq_iff c q mode d, fun out h => unknownGranularity_mem_iff h⟩⟩
  · rw [houtcome, houtcome]
  · cases h : c.compileWith mode d q with
    | ok out => exact ⟨out, rfl⟩
    | error e =>
      have hstrict := strict_of_refused hq ((compileWith_eq_error_iff ..).mp h)
      rw [hlenient] at hstrict
      cases hstrict

/-- An unknown interval, and condition text with a forbidden word where none is allowed. -/
def refusedQuery : Query := {
  timeInterval := some " fortnightly"
  advanced := some (.text "1=1; drop table stats_daily ")}

/-- The interval is looked at first and the text second; without either, the request compiles. -/
theorem refused_in_order :
    (∀ mode d, (Compiler.default.withStrict true).compileWith mode d refusedQuery =
      .error (.invalid (.unknownInterval "fortnightly"))) ∧
    (∀ mode d, Compiler.default.compileWith mode d refusedQuery =
      .error (.unsafeFilter (.forbidden "drop"))) ∧
    ∀ mode d, ∃ out,
      Compiler.default.compileWith mode d {refusedQuery with advanced := none} = .ok out ∧
        .unknownGranularity "fortnightly" ∈ out.warnings := by
  have hunknown : refusedQuery.UnknownInterval "fortnightly" := by
    refine ⟨by decide +kernel, by decide, fun g => ?_⟩
    cases g <;> decide +kernel
  have hgives : refusedQuery.GivesText "1=1; drop table stats_daily" :=
    ⟨_, rfl, by decide +kernel, by decide⟩
  have hhit : Sql.forbidden? "1=1; drop table stats_daily" = some "drop" := by decide +kernel
  have hno : ({refusedQuery with advanced := none} : Query).NoText := by
    intro text h
    cases h
  refine ⟨fun mode d => ?_, fun mode d => ?_, fun mode d => ?_⟩
  · exact ((fails_exactly _ _).1 mode d _).mpr (.unknownInterval rfl hunknown)
  · exact ((fails_exactly _ _).1 mode d _).mpr (.unsafeText (fun h => by cases h) hgives hhit)
  · have hall := fails_exactly .default {refusedQuery with advanced := none}
    obtain ⟨out, hout⟩ := hall.2.2.1 rfl hno mode d
    exact ⟨out, hout, ((hall.2.2.2 mode d).2 out hout "fortnightly").mpr hunknown⟩

end Compile

end BucketQuery
