import BucketQuery.Proofs.Calendar.Figures
import BucketQuery.Proofs.Compile.Failure
import BucketQuery.Proofs.Text.Line

/-! Line breaks in what warnings say.

Names that are refused are quoted, and so are intervals, so a message with one of these is on one line. A
condition that is dropped for its value is reported with its field as the request gives it. The field has
been found to be an identifier by then, but for blank space around it, and line breaks are blank space.
Main statement, `message_parts`: what breaks the line of a warning is in such a field. -/
namespace BucketQuery.Compile

open BucketQuery.Filter (Condition Operator Tree)
open Section (Query)
open Sql (Dialect LiteralMode isIdentifier)
open Text (append_unbroken isLineBreak quoted_unbroken unbroken)

/-- The field that a message shows as it was given. -/
def Drop.bareField? : Drop → Option String
  | .malformedRange field _ | .missingValue field _ | .notScalar field _ => some field
  | .invalidField _ | .incomplete | .emptyGroup | .tooDeep _ => none

def Warning.bareField? : Warning → Option String
  | .dropped _ why => why.bareField?
  | .unknownGranularity _ | .invalidIdentifier .. | .invertedDates .. => none

/-- The message shows the field between texts without line breaks, the second of which starts with a
blank. -/
def Shows (message field : String) : Prop :=
  ∃ front back, message = front ++ field ++ back ∧ unbroken front = true ∧ unbroken back = true ∧
    back.toList.head? = some ' '

theorem Shows.behind {message field : String} (h : Shows message field) {front : String}
    (hfront : unbroken front = true) : Shows (front ++ message) field := by
  obtain ⟨before, back, rfl, hbefore, hback, hblank⟩ := h
  refine ⟨front ++ before, back, ?_, append_unbroken hfront hbefore, hback, hblank⟩
  simp only [String.append_assoc]

theorem Shows.lineBreak_mem_iff {message field : String} (h : Shows message field) {b : Char}
    (hb : isLineBreak b = true) : b ∈ message.toList ↔ b ∈ field.toList := by
  obtain ⟨front, back, rfl, hfront, hback, _⟩ := h
  have hnot {s : String} (hs : unbroken s = true) : b ∉ s.toList := fun hm => by
    rw [Text.unbroken_iff.mp hs b hm] at hb
    cases hb
  simp [hnot hfront, hnot hback]

/-! ### Fixed parts -/

theorem digits_unbroken (n : Nat) : unbroken n.repr = true := by
  rw [Text.unbroken_iff, Nat.toList_repr]
  exact Double.digits_forall Text.not_lineBreak_of_digit (Double.toDigits_all n)

theorem instant_unbroken (t : Calendar.Instant) : unbroken t.text = true :=
  Text.unbroken_iff.mpr (t.text_forall Text.not_lineBreak_of_digit (by simp [isLineBreak]))

theorem slotText_unbroken (s : Slot) : unbroken (Path.slotText s) = true := by
  cases s with
  | condition i => exact append_unbroken (append_unbroken (by decide) (digits_unbroken i)) (by decide)
  | group i => exact append_unbroken (append_unbroken (by decide) (digits_unbroken i)) (by decide)

theorem intercalate_unbroken {texts : List String} (h : ∀ text ∈ texts, unbroken text = true) :
    unbroken (".".intercalate texts) = true := by
  induction texts with
  | nil => decide
  | cons text texts ih =>
    rw [List.forall_mem_cons] at h
    cases texts with
    | nil =>
      rw [String.intercalate_singleton]
      exact h.1
    | cons next texts =>
      rw [String.intercalate_cons_cons]
      exact append_unbroken (append_unbroken h.1 (by decide)) (ih h.2)

theorem path_unbroken (p : Path) : unbroken p.text = true := by
  rw [Path.text_eq]
  refine intercalate_unbroken fun text hm => ?_
  obtain ⟨slot, _, rfl⟩ := List.mem_map.mp hm
  exact slotText_unbroken slot

theorem operator_unbroken {op : Operator} (h : op.recognized = true) : unbroken op.text = true := by
  cases op with
  | compare cmp => cases cmp <;> decide
  | like p => cases p <;> decide
  | between negated => cases negated <;> decide
  | isNull negated => cases negated <;> decide
  | isTrue wanted => cases wanted <;> decide
  | unrecognized text => cases h

/-! ### Conditions -/

/-- The condition is dropped for its value. -/
def ForValue (c : Condition) (op : Operator) (why : Drop) : Prop :=
  why = .missingValue c.field op.text ∨ why = .notScalar c.field op.text ∨
    why = .malformedRange c.field op.text

section Condition
variable {c : Condition} {op : Operator} {why : Drop}

theorem scalar_error (h : scalar c op = .error why) : ForValue c op why := by
  unfold scalar at h
  split at h
  · cases h
    exact .inl rfl
  · cases h
  · cases h
    exact .inr (.inl rfl)

theorem likeText_error (h : likeText c op = .error why) : ForValue c op why := by
  unfold likeText at h
  split at h
  case h_4 =>
    cases h
    exact .inl rfl
  case h_5 =>
    cases h
    exact .inr (.inl rfl)
  case h_6 =>
    cases h
    exact .inr (.inl rfl)
  all_goals cases h

theorem range_error (h : range c op = .error why) : ForValue c op why := by
  have hmalformed (h : Drop.malformedRange c.field op.text = why) : ForValue c op why := .inr (.inr h.symm)
  unfold range at h
  split at h
  · split at h
    · split at h
      · exact hmalformed (Except.error.inj h)
      · cases h
    · exact hmalformed (Except.error.inj h)
  · exact hmalformed (Except.error.inj h)

theorem test_error {column : String} (h : test c column op = .error why) :
    why = .incomplete ∨ op.recognized = true ∧ ForValue c op why := by
  cases op with
  | compare cmp =>
    rcases bind_eq_error_iff.mp h with h | ⟨v, _, h⟩
    · exact .inr ⟨rfl, scalar_error h⟩
    · cases h
  | like p =>
    rcases bind_eq_error_iff.mp h with h | ⟨s, _, h⟩
    · exact .inr ⟨rfl, likeText_error h⟩
    · cases h
  | between negated =>
    rcases bind_eq_error_iff.mp h with h | ⟨bounds, _, h⟩
    · exact .inr ⟨rfl, range_error h⟩
    · cases h
  | isNull negated => cases h
  | isTrue wanted => cases h
  | unrecognized text =>
    cases h
    exact .inl rfl

/-- A condition is dropped for its value only once its field has been found to be an identifier. -/
theorem condition_error (h : condition c = .error why) :
    why = .incomplete ∨ why = .invalidField c.field ∨
      isIdentifier (Text.trim c.field) = true ∧ ∃ op : Operator, op.recognized = true ∧ ForValue c op why := by
  unfold condition at h
  split at h
  · cases h
    exact .inl rfl
  · split at h
    · cases h
      exact .inl rfl
    · dsimp only at h
      split at h
      · rename_i op _ _ hidentifier
        rcases test_error h with hincomplete | htest
        · exact .inl hincomplete
        · exact .inr (.inr ⟨hidentifier, op, htest⟩)
      · cases h
        exact .inr (.inl rfl)

end Condition

theorem forValue_shows {c : Condition} {op : Operator} {why : Drop} (hop : op.recognized = true)
    (h : ForValue c op why) : why.bareField? = some c.field ∧ Shows why.message c.field := by
  have hfront : unbroken (op.text ++ " on ") = true :=
    append_unbroken (operator_unbroken hop) (by decide)
  rcases h with rfl | rfl | rfl
  · exact ⟨rfl, _, _, rfl, hfront, by decide, by decide⟩
  · exact ⟨rfl, _, _, rfl, hfront, by decide, by decide⟩
  · exact ⟨rfl, _, _, rfl, hfront, by decide, by decide⟩

/-! ### Warnings -/

/-- What is dropped for another reason than its value is reported on one line. -/
theorem other_unbroken {why : Drop} (h : why.bareField? = none) : unbroken why.message = true := by
  cases why with
  | invalidField field =>
    exact append_unbroken (append_unbroken (by decide) (quoted_unbroken field)) (by decide)
  | incomplete | emptyGroup => decide
  | tooDeep deepest =>
    exact append_unbroken (append_unbroken (by decide) (digits_unbroken deepest)) (by decide)
  | malformedRange | missingValue | notScalar => cases h

theorem unknownGranularity_unbroken (token : String) :
    unbroken (Warning.unknownGranularity token).message = true :=
  append_unbroken (append_unbroken (by decide) (quoted_unbroken token)) (by decide)

theorem invalidIdentifier_unbroken (role : Role) (name : String) :
    unbroken (Warning.invalidIdentifier role name).message = true := by
  have hrole : unbroken role.text = true := by cases role <;> decide
  have hfront : unbroken (role.text ++ " ") = true := append_unbroken hrole (by decide)
  exact append_unbroken (append_unbroken hfront (quoted_unbroken name)) (by decide)

theorem invertedDates_unbroken (s e : Calendar.Instant) :
    unbroken (Warning.invertedDates s.text e.text).message = true := by
  have hfront : unbroken ("start date " ++ s.text) = true :=
    append_unbroken (by decide) (instant_unbroken s)
  exact append_unbroken (append_unbroken hfront (by decide)) (instant_unbroken e)

theorem intervalWarnings_unbroken (q : Query) :
    ∀ w ∈ intervalWarnings q, w.bareField? = none ∧ unbroken w.message = true := by
  intro w hw
  obtain ⟨token, _, rfl⟩ := Option.map_eq_some_iff.mp (Option.mem_toList.mp hw)
  exact ⟨rfl, unknownGranularity_unbroken token⟩

theorem requestWarnings_unbroken (q : Query) :
    ∀ w ∈ requestWarnings q, w.bareField? = none ∧ unbroken w.message = true := by
  intro w hw
  rw [requestWarnings, List.mem_append, List.mem_append] at hw
  rcases hw with (hw | hw) | hw
  · unfold datesWarning at hw
    split at hw
    · split at hw
      · rw [List.mem_singleton.mp hw]
        exact ⟨rfl, invertedDates_unbroken _ _⟩
      · cases hw
    · cases hw
  · obtain ⟨name, _, rfl⟩ := List.mem_map.mp hw
    exact ⟨rfl, invalidIdentifier_unbroken _ name⟩
  · unfold groupKey at hw
    dsimp only at hw
    split at hw
    · cases hw
    · split at hw
      · cases hw
      · rw [List.mem_singleton.mp hw]
        exact ⟨rfl, invalidIdentifier_unbroken _ _⟩

/-- The warning is of a condition of the tree that is dropped for its value, and shows its field. -/
def OfValue (t : Tree) (w : Warning) (c : Condition) : Prop :=
  ∃ path why, w = .dropped path why ∧ t.at? path = some (.condition c) ∧ why.bareField? = some c.field ∧
    isIdentifier (Text.trim c.field) = true ∧ Shows w.message c.field

theorem tree_message {deepest : Nat} {t : Tree} {w : Warning} (h : w ∈ (tree deepest t).2) :
    (w.bareField? = none ∧ unbroken w.message = true) ∨ ∃ c, OfValue t w c := by
  rw [tree_warnings] at h
  obtain ⟨path, n, why, rfl, hplace, hfate⟩ := dropped_of_warning h
  have hpath : unbroken (path.text ++ ": ") = true := append_unbroken (path_unbroken path) (by decide)
  have hother (hbare : why.bareField? = none) : unbroken (Warning.dropped path why).message = true :=
    append_unbroken hpath (other_unbroken hbare)
  cases n with
  | group joins children =>
    have hbare : why.bareField? = none := by
      unfold fate at hfate
      dsimp only at hfate
      split_ifs at hfate
      · cases hfate
        rfl
      · cases hfate
        rfl
    exact .inl ⟨hbare, hother hbare⟩
  | condition c =>
    have herror : condition c = .error why := by
      unfold fate at hfate
      dsimp only at hfate
      split at hfate
      · cases hfate
      · split at hfate
        · cases hfate
        · rename_i hc
          cases hfate
          exact hc
    rcases condition_error herror with rfl | rfl | ⟨hidentifier, op, hop, hvalue⟩
    · exact .inl ⟨rfl, hother rfl⟩
    · exact .inl ⟨rfl, hother rfl⟩
    · obtain ⟨hbare, hshows⟩ := forValue_shows hop hvalue
      exact .inr ⟨c, path, why, rfl, hplace, hbare, hidentifier, hshows.behind hpath⟩

/-- The warning is on one line, or it shows the field of a condition of the filter that is given. -/
def Worded (given : Option Section.Advanced) (w : Warning) : Prop :=
  (w.bareField? = none ∧ unbroken w.message = true) ∨ ∃ t c, given = some (.tree t) ∧ OfValue t w c

/-- **Only fields break lines.** Whatever a request holds, each warning of its compile is on one line but
for a field that it shows as it was given. -/
theorem message_parts {c : Compiler} {q : Query} {mode : LiteralMode} {d : Dialect} {out : Compiled}
    (h : c.compileWith mode d q = .ok out) {w : Warning} (hw : w ∈ out.warnings) :
    Worded q.advanced w := by
  obtain ⟨p, hp, rfl⟩ := compiled_of_ok c q h
  have hwarnings : w ∈ p.warnings := hw
  rw [(plan_parts c q hp).2.2.2, List.mem_append, List.mem_append] at hwarnings
  rcases hwarnings with (hw | hw) | hw
  · exact .inl (intervalWarnings_unbroken q w hw)
  · cases ha : q.advanced with
    | none =>
      rw [ha] at hw
      cases hw
    | some given =>
      rw [ha] at hw
      cases given with
      | text text => cases hw
      | tree t => exact (tree_message hw).imp_right fun ⟨cond, hvalue⟩ => ⟨t, cond, rfl, hvalue⟩
  · exact .inl (requestWarnings_unbroken q w hw)

section Worded
variable {given : Option Section.Advanced} {w : Warning}

theorem Worded.lineBreak_mem_iff (h : Worded given w) {b : Char} (hb : isLineBreak b = true) :
    b ∈ w.message.toList ↔ ∃ field, w.bareField? = some field ∧ b ∈ field.toList := by
  rcases h with ⟨hbare, hmessage⟩ | ⟨t, c, _, path, why, rfl, _, hbare, _, hshows⟩
  · refine iff_of_false (fun hm => ?_) ?_
    · rw [Text.unbroken_iff.mp hmessage b hm] at hb
      cases hb
    · simp [hbare]
  · have hfield : (Warning.dropped path why).bareField? = some c.field := hbare
    simp [hfield, hshows.lineBreak_mem_iff hb]

/-- A field that a warning shows is that of the condition its path leads to. -/
theorem Worded.field (h : Worded given w) {field : String} (hfield : w.bareField? = some field) :
    isIdentifier (Text.trim field) = true ∧ ∃ (t : Tree) (path : Path) (c : Condition),
      given = some (.tree t) ∧ w.path? = some path ∧ t.at? path = some (.condition c) ∧ c.field = field := by
  rcases h with ⟨hbare, _⟩ | ⟨t, c, hgiven, path, why, rfl, hplace, hbare, hidentifier, _⟩
  · rw [hbare] at hfield
    cases hfield
  · obtain rfl : c.field = field := Option.some.inj (hbare.symm.trans hfield)
    exact ⟨hidentifier, t, path, c, hgiven, rfl, hplace, rfl⟩

end Worded

end BucketQuery.Compile
