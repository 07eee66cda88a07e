import BucketQuery.CommandLine
import BucketQuery.Proofs.Compile.Message
import BucketQuery.Proofs.Json.Control

/-! The remarks below a statement.

An answer is printed line by line, and whatever reads it takes what follows the statement for comments only
if every line there starts with the mark of one. Parameters are JSON text, which has no line ends. A warning
has none either, unless the field it shows has. Main statement, `remarks_commented_iff`: all that is printed
below a statement is comments exactly if no line end stands in the blank space around the field of a
condition that is dropped for its value. The program prints nothing but lines of this kind
(`answer_lines`). -/
namespace BucketQuery.CommandLine

open BucketQuery.Filter (Condition Tree)
open Compile (Compiled Compiler Warning Worded)
open Section (Query)
open Sql (Dialect LiteralMode isIdentifier)
open Text (isLineBreak unbroken)

/-! ### Comments -/

/-- What is printed, every line with its end. -/
def printed (ls : List String) : String := String.join (ls.map (· ++ "\n"))

/-- Every line in a text starts with the mark of a comment. `ends` tells the characters that lines end
with; a text need not start where a line does. -/
def commented (ends : Char → Bool) : (atStart : Bool) → List Char → Bool
  | _, [] => true
  | atStart, c :: rest =>
    (!atStart || "-- ".toList.isPrefixOf (c :: rest)) && commented ends (ends c) rest

/-- Lines end with a line feed, and perhaps with other line breaks that are controls. -/
structure EndsLines (ends : Char → Bool) : Prop where
  feed : ends '\n' = true
  lineBreak : ∀ b, ends b = true → isLineBreak b = true
  control : ∀ b, ends b = true → Json.shown b = false

section Comments
variable {ends : Char → Bool}

theorem commented_behind {cs : List Char} (h : ∀ c ∈ cs, ends c = false) (rest : List Char) :
    commented ends false (cs ++ rest) = commented ends false rest := by
  induction cs with
  | nil => rfl
  | cons c cs ih =>
    rw [List.forall_mem_cons] at h
    rw [List.cons_append, commented, h.1, ih h.2]
    rfl

theorem commented_mark (h : EndsLines ends) (rest : List Char) :
    commented ends true ("-- ".toList ++ rest) = commented ends false rest := by
  have hdash : ends '-' = false := Bool.eq_false_iff.mpr fun hc => absurd (h.lineBreak _ hc) (by decide)
  have hblank : ends ' ' = false := Bool.eq_false_iff.mpr fun hc => absurd (h.lineBreak _ hc) (by decide)
  show commented ends true ('-' :: '-' :: ' ' :: rest) = _
  rw [commented, commented, commented, hdash, hblank]
  rfl

/-- Behind the end of a line, what does not start with a dash is no comment. -/
theorem commented_of_head {c : Char} (h : c ≠ '-') (rest : List Char) :
    commented ends true (c :: rest) = false := by
  have hmark : "-- ".toList.isPrefixOf (c :: rest) = false := by
    show List.isPrefixOf ['-', '-', ' '] (c :: rest) = false
    simp [List.isPrefixOf, Ne.symm h]
  rw [commented, hmark]
  rfl

/-- A text without dashes ends a line in front of a blank, or none at all. -/
theorem commented_field {cs : List Char} (hdash : '-' ∉ cs) (rest : List Char) :
    commented ends false (cs ++ ' ' :: rest) =
      (cs.all (!ends ·) && commented ends false (' ' :: rest)) := by
  induction cs with
  | nil => rfl
  | cons c cs ih =>
    rw [List.mem_cons, not_or] at hdash
    rw [List.cons_append, commented, List.all_cons]
    cases hc : ends c with
    | false =>
      rw [ih hdash.2]
      rfl
    | true =>
      have hnext : commented ends true (cs ++ ' ' :: rest) = false := by
        cases cs with
        | nil => exact commented_of_head (by decide) rest
        | cons next cs => exact commented_of_head (fun heq => hdash.2 (heq ▸ List.mem_cons_self)) _
      rw [hnext]
      rfl

end Comments

theorem printed_cons (l : String) (ls : List String) : printed (l :: ls) = l ++ "\n" ++ printed ls :=
  String.join_cons

theorem printed_cons_toList (l : String) (ls : List String) :
    (printed (l :: ls)).toList = l.toList ++ '\n' :: (printed ls).toList := by
  have hfeed : "\n".toList = ['\n'] := by decide
  rw [printed_cons, String.toList_append, String.toList_append, hfeed, List.append_assoc]
  rfl

/-! ### Remarks -/

/-- The lines below the statement. -/
def remarks (c : Compiled) : List String := (lines c).tail

/-- The field that the warning shows, if any, holds no line end. -/
def KeepsLine (ends : Char → Bool) (w : Warning) : Bool :=
  w.bareField?.all fun field => field.toList.all (!ends ·)

theorem keepsLine_iff {ends : Char → Bool} {w : Warning} : KeepsLine ends w = true ↔
    ∀ field, w.bareField? = some field → ∀ b ∈ field.toList, ends b = false := by
  cases hbare : w.bareField? with
  | none => simp [KeepsLine, hbare]
  | some field => simp [KeepsLine, hbare]

section Remarks
variable {ends : Char → Bool} (hends : EndsLines ends)
include hends

theorem not_ends_of_unbroken {s : String} (h : unbroken s = true) : ∀ c ∈ s.toList, ends c = false := by
  intro c hc
  rw [Bool.eq_false_iff]
  intro hend
  have hbreak := hends.lineBreak c hend
  rw [Text.unbroken_iff.mp h c hc] at hbreak
  cases hbreak

theorem not_ends_of_shown {cs : List Char} (h : cs.all Json.shown = true) : ∀ c ∈ cs, ends c = false := by
  intro c hc
  rw [Bool.eq_false_iff]
  intro hend
  have hcontrol := hends.control c hend
  rw [List.all_eq_true.mp h c hc] at hcontrol
  cases hcontrol

/-- A line feed behind a comment starts a line. -/
theorem commented_feed (rest : List Char) : commented ends false ('\n' :: rest) = commented ends true rest := by
  rw [commented, hends.feed]
  rfl

/-- A remark on one line. -/
theorem commented_remark {text : List Char} (h : ∀ c ∈ text, ends c = false) (rest : List Char) :
    commented ends true ("-- ".toList ++ (text ++ '\n' :: rest)) = commented ends true rest := by
  rw [commented_mark hends, commented_behind h, commented_feed hends]

theorem commented_params (v : Json) (rest : List Char) :
    commented ends true (("-- params: " ++ v.text).toList ++ '\n' :: rest) = commented ends true rest := by
  have hmark : "-- params: ".toList = "-- ".toList ++ "params: ".toList := by decide
  have htext : ("params: ".toList ++ v.text.toList).all Json.shown = true := by
    rw [List.all_append, Json.text_shown v]
    decide
  rw [String.toList_append, hmark, List.append_assoc, List.append_assoc]
  have := commented_remark hends (not_ends_of_shown hends htext) rest
  rwa [List.append_assoc] at this

theorem commented_warning {given : Option Section.Advanced} {w : Warning} (h : Worded given w)
    (rest : List Char) :
    commented ends true (("-- warning: " ++ w.message).toList ++ '\n' :: rest) =
      (KeepsLine ends w && commented ends true rest) := by
  have hmark : "-- warning: ".toList = "-- ".toList ++ "warning: ".toList := by decide
  have hwarning : ∀ c ∈ "warning: ".toList, ends c = false := not_ends_of_unbroken hends (by decide)
  rw [String.toList_append, hmark, List.append_assoc, List.append_assoc, commented_mark hends,
    commented_behind hwarning]
  rcases h with ⟨hbare, hmessage⟩ | ⟨t, c, _, path, why, rfl, _, hbare, hidentifier, hshows⟩
  · rw [KeepsLine, hbare, commented_behind (not_ends_of_unbroken hends hmessage), commented_feed hends]
    rfl
  · obtain ⟨front, back, hmessage, hfront, hback, hblank⟩ := hshows
    obtain ⟨more, hmore⟩ : ∃ more, back.toList = ' ' :: more := List.head?_eq_some_iff.mp hblank
    have hdash : '-' ∉ c.field.toList := by
      intro hm
      rw [isIdentifier, Bool.and_eq_true] at hidentifier
      rcases Text.blank_or_mem_trim hm with hdash | hdash
      · exact absurd hdash (by decide)
      · exact Sql.not_mem_of_all hidentifier.2 (by decide) hdash
    have hbehind : commented ends false (' ' :: (more ++ '\n' :: rest)) = commented ends true rest := by
      have := commented_behind (not_ends_of_unbroken hends hback) ('\n' :: rest)
      rw [hmore, List.cons_append] at this
      rw [this, commented_feed hends]
    rw [KeepsLine, Warning.bareField?, hbare, hmessage, String.toList_append, String.toList_append,
      List.append_assoc, List.append_assoc, commented_behind (not_ends_of_unbroken hends hfront), hmore,
      List.cons_append, commented_field hdash, hbehind]
    rfl

theorem commented_warnings {given : Option Section.Advanced} {ws : List Warning}
    (h : ∀ w ∈ ws, Worded given w) :
    commented ends true (printed (ws.map fun w => "-- warning: " ++ w.message)).toList =
      ws.all (KeepsLine ends) := by
  induction ws with
  | nil => rfl
  | cons w ws ih =>
    rw [List.forall_mem_cons] at h
    rw [List.map_cons, printed_cons_toList, commented_warning hends h.1, ih h.2, List.all_cons]

/-- What is printed below a statement is comments if no warning shows a field with a line end in it, and
only then. -/
theorem commented_remarks {given : Option Section.Advanced} {c : Compiled}
    (h : ∀ w ∈ c.warnings, Worded given w) :
    commented ends true (printed (remarks c)).toList = c.warnings.all (KeepsLine ends) := by
  rw [← commented_warnings hends h, remarks, lines]
  cases c.params.isEmpty with
  | true => rfl
  | false =>
    show commented ends true (printed (_ :: c.warnings.map _)).toList = _
    rw [printed_cons_toList, commented_params hends]

end Remarks

/-! ### Answers -/

/-- What a computation on a disk held as a value got from its first step, if it succeeds. -/
theorem run_bind_ok {ε α β : Type} {x : ExceptT ε Id α} {f : α → ExceptT ε Id β} {b : β}
    (h : (x >>= f).run = .ok b) : ∃ a, x.run = .ok a ∧ (f a).run = .ok b := by
  have hrun : (x >>= f).run = ExceptT.bindCont f x.run := rfl
  rw [hrun] at h
  cases hx : (x.run : Except ε α) with
  | error e =>
    rw [hx] at h
    cases h
  | ok a =>
    rw [hx] at h
    exact ⟨a, rfl, h⟩

theorem ok_of_mapError {ε ε' α : Type} {x : Except ε α} {f : ε → ε'} {a : α} (h : x.mapError f = .ok a) :
    x = .ok a := by
  cases x with
  | error e => cases h
  | ok b =>
    cases h
    rfl

/-- Whatever the disk holds, an answer is the lines of a compile. -/
theorem answer_lines {disk : Files.Disk Id} {surroundings : Settings.Surroundings} {args ls : List String}
    (h : (answer disk surroundings args).run = .ok ls) :
    ∃ (c : Compiler) (mode : LiteralMode) (d : Dialect) (q : Query) (out : Compiled),
      c.compileWith mode d q = .ok out ∧ ls = lines out := by
  obtain ⟨a, _, h⟩ := run_bind_ok h
  obtain ⟨q, _, h⟩ := run_bind_ok h
  obtain ⟨settings, _, h⟩ := run_bind_ok h
  obtain ⟨out, hout, h⟩ := run_bind_ok h
  obtain ⟨c, _, hcompile⟩ := ok_of_bind (ok_of_mapError hout)
  cases h
  exact ⟨c, _, _, q, out, hcompile, rfl⟩

/-! ### Below the statement -/

/-- **Below the statement there are comments, unless a field breaks a line.** A line break in a message is
one in the field that it shows, which is the field of a condition of the filter and an identifier but for the
blank space around it. Printed, an answer is its statement and its remarks; all lines of the remarks are
comments exactly if no field that is shown holds a line end. -/
theorem remarks_commented_iff (c : Compiler) (mode : LiteralMode) (d : Dialect) (q : Query) {out : Compiled}
    (h : c.compileWith mode d q = .ok out) :
    (∀ w ∈ out.warnings, ∀ b, isLineBreak b = true →
      (b ∈ w.message.toList ↔ ∃ field, w.bareField? = some field ∧ b ∈ field.toList)) ∧
    (∀ w ∈ out.warnings, ∀ field, w.bareField? = some field →
      isIdentifier (Text.trim field) = true ∧ ∃ (t : Tree) (path : Compile.Path) (cond : Condition),
        q.advanced = some (.tree t) ∧ w.path? = some path ∧ t.at? path = some (.condition cond) ∧
          cond.field = field) ∧
    printed (lines out) = out.sql ++ "\n" ++ printed (remarks out) ∧
    ∀ ends, EndsLines ends →
      (commented ends true (printed (remarks out)).toList = true ↔
        ∀ w ∈ out.warnings, ∀ field, w.bareField? = some field → ∀ b ∈ field.toList, ends b = false) := by
  have hworded (w : Warning) (hw : w ∈ out.warnings) : Worded q.advanced w := Compile.message_parts h hw
  refine ⟨fun w hw b => (hworded w hw).lineBreak_mem_iff, fun w hw field => (hworded w hw).field,
    printed_cons out.sql _, fun ends hends => ?_⟩
  rw [commented_remarks hends hworded]
  simp only [List.all_eq_true, keepsLine_iff]

/-- A range with one bound only, on a field as it is given, and a queue whose name has two lines. -/
def halfRangeQuery (field : String) : Query := {
  dimensions := {queues := ["sa\nles"]}
  advanced := some (.tree ⟨[.condition ⟨field, some (.between false), .number (.int 5), .and, false⟩]⟩)}

theorem halfRange_warnings {field : String} {mode : LiteralMode} {d : Dialect} {out : Compiled}
    (hdropped : Compile.condition ⟨field, some (.between false), .number (.int 5), .and, false⟩ =
      .error (.malformedRange field "BETWEEN"))
    (h : Compiler.default.compileWith mode d (halfRangeQuery field) = .ok out) :
    out.warnings = [.dropped ⟨[], .condition 0⟩ (.malformedRange field "BETWEEN")] := by
  obtain ⟨p, hp, rfl⟩ := Compile.compiled_of_ok _ _ h
  show p.warnings = _
  rw [(Compile.plan_parts _ _ hp).2.2.2]
  show [] ++ (Compile.tree 4 ⟨[.condition ⟨field, some (.between false), .number (.int 5), .and, false⟩]⟩).2 ++
    [] = _
  simp only [Compile.tree, Compile.nodes, hdropped]
  rfl

theorem spaced_remarks_commented :
    ∃ out, Compiler.default.compileWith .bound .duckdb (halfRangeQuery "\tinbound ") = .ok out ∧
      (∀ w ∈ out.warnings, '\n' ∉ w.message.toList) ∧
      (∃ w ∈ out.warnings, w.bareField? = some "\tinbound " ∧ isIdentifier (Text.trim "\tinbound ") = true) ∧
      EndsLines (fun c => c == '\n' || c == '\r') ∧
      commented (fun c => c == '\n' || c == '\r') true (printed (remarks out)).toList = true := by
  have hok : ∃ out, Compiler.default.compileWith .bound .duckdb (halfRangeQuery "\tinbound ") = .ok out :=
    ⟨_, rfl⟩
  obtain ⟨out, h⟩ := hok
  obtain ⟨hbreaks, hfields, _, hremarks⟩ :=
    remarks_commented_iff .default .bound .duckdb (halfRangeQuery "\tinbound ") h
  have hwarnings := halfRange_warnings rfl h
  have hends : EndsLines fun c => c == '\n' || c == '\r' := by
    refine ⟨by decide, fun b hb => ?_, fun b hb => ?_⟩
    · rcases (by simpa using hb : b = '\n' ∨ b = '\r') with rfl | rfl <;> decide
    · rcases (by simpa using hb : b = '\n' ∨ b = '\r') with rfl | rfl <;> decide
  have hw : Warning.dropped ⟨[], .condition 0⟩ (.malformedRange "\tinbound " "BETWEEN") ∈ out.warnings := by
    rw [hwarnings]
    exact List.mem_singleton_self _
  have hbare : ∀ w ∈ out.warnings, ∀ field, w.bareField? = some field → field = "\tinbound " := by
    intro w hm field hfield
    rw [hwarnings, List.mem_singleton] at hm
    rw [hm] at hfield
    exact (Option.some.inj hfield).symm
  refine ⟨out, h, fun w hm hfeed => ?_, ⟨_, hw, rfl, (hfields _ hw _ rfl).1⟩, hends,
    (hremarks _ hends).mpr fun w hm field hfield => ?_⟩
  · obtain ⟨field, hfield, hfeed⟩ := (hbreaks w hm '\n' (by decide)).mp hfeed
    rw [hbare w hm field hfield] at hfeed
    exact absurd hfeed (by decide)
  · rw [hbare w hm field hfield]
    exact not_ends_of_unbroken hends (by decide)

/-- A line feed behind the name of a field reaches the message, and cuts the remark in two. -/
theorem fed_remark_uncommented :
    ∃ out w, Compiler.default.compileWith .inline .duckdb (halfRangeQuery "inbound\n") = .ok out ∧
      out.warnings = [w] ∧ '\n' ∈ w.message.toList ∧
      printed (remarks out) =
        "-- warning: conditions[0]: BETWEEN on inbound\n needs a [low, high] pair, condition dropped\n" ∧
      commented (· == '\n') true (printed (remarks out)).toList = false := by
  have hok : ∃ out, Compiler.default.compileWith .inline .duckdb (halfRangeQuery "inbound\n") = .ok out :=
    ⟨_, rfl⟩
  obtain ⟨out, h⟩ := hok
  have hparams : out.params = [] := Compile.inline_params _ _ h
  have hwarnings := halfRange_warnings rfl h
  have hremarks : printed (remarks out) =
      "-- warning: conditions[0]: BETWEEN on inbound\n needs a [low, high] pair, condition dropped\n" := by
    rw [remarks, lines, hparams, hwarnings]
    show printed ["-- warning: " ++ (Warning.dropped ⟨[], .condition 0⟩
      (.malformedRange "inbound\n" "BETWEEN")).message] = _
    decide
  refine ⟨out, _, h, hwarnings, by decide, hremarks, ?_⟩
  rw [hremarks]
  decide

end BucketQuery.CommandLine
