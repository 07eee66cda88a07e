import BucketQuery.Decode.Record
import BucketQuery.Proofs.Json.Document

/-! Lists, values that may be missing, and records.

Two things are said of each. What was written is read: a record field by field in the order they stand
(`Record.readFields_cons`), so that what comes of a written record is found one field at a time. And
whatever is read has what its parts have: a record what each of its fields keeps
(`Record.decode_keeps`), whichever of them a document has, and in whichever order. -/
namespace BucketQuery.Decode

/-! ### Reading what was written -/

theorem json_ofJson {v : Json} (h : v.isFinite = true) : json .value (Document.ofJson v) = .ok v := by
  rw [json, Document.toJson_ofJson v h]
  rfl

/-- A value that was written, or null in place of none. -/
theorem optional_orNull {α : Type} {read : Document → Decoded α} {write : α → Json} {x : Option α}
    (hnull : ∀ a, (Document.ofJson (write a)).isNull = false)
    (hread : ∀ a ∈ x, read (Document.ofJson (write a)) = .ok a) :
    optional read (Document.ofJson (Json.orNull (x.map write))) = .ok x := by
  cases x with
  | none => rfl
  | some a =>
    rw [Option.map_some, Json.orNull, Option.getD_some, optional, hnull a, hread a rfl]
    rfl

theorem optional_string (x : Option String) :
    optional string (Document.ofJson (Json.orNull (x.map .string))) = .ok x :=
  optional_orNull (fun _ => rfl) fun _ _ => rfl

theorem strings_ofJson (ss : List String) : strings (Document.ofJson (Json.strings ss)) = .ok ss := by
  have heach : each string (Document.ofItems (ss.map .string)) = .ok ss := by
    induction ss with
    | nil => rfl
    | cons s rest ih =>
      rw [List.map_cons, Document.ofItems, each, ih]
      rfl
  rw [Json.strings, Document.ofJson, strings, list, heach]
  rfl

/-! ### Lists -/

section Each
variable {α β : Type} {read : Document → Decoded α}

theorem each_cons_iff {d : Document} {ds : List Document} {as : List α} :
    each read (d :: ds) = .ok as ↔
      ∃ b, read d = .ok b ∧ ∃ bs, each read ds = .ok bs ∧ b :: bs = as := by
  rw [each, bind_eq_ok_iff]
  refine exists_congr fun b => and_congr_right fun _ => ?_
  rw [bind_eq_ok_iff]
  exact exists_congr fun bs => and_congr_right fun _ => ⟨Except.ok.inj, congrArg Except.ok⟩

theorem each_append (ds es : List Document) :
    each read (ds ++ es) = do
      let as ← each read ds
      let bs ← each read es
      return as ++ bs := by
  induction ds with
  | nil =>
    rw [List.nil_append]
    show each read es = each read es >>= pure
    rw [bind_pure]
  | cons d rest ih =>
    rw [List.cons_append, each, each, ih]
    simp only [bind_assoc, pure_bind, List.cons_append]

theorem each_append_iff {ds es : List Document} {cs : List α} :
    each read (ds ++ es) = .ok cs ↔
      ∃ as bs, each read ds = .ok as ∧ each read es = .ok bs ∧ as ++ bs = cs := by
  rw [each_append]
  constructor
  · intro h
    obtain ⟨as, has, h⟩ := ok_of_bind h
    obtain ⟨bs, hbs, h⟩ := ok_of_bind h
    exact ⟨as, bs, has, hbs, Except.ok.inj h⟩
  · rintro ⟨as, bs, has, hbs, rfl⟩
    rw [has, hbs]
    rfl

theorem read_of_each {ds : List Document} {as : List α} (h : each read ds = .ok as) :
    ∀ d ∈ ds, ∃ a, read d = .ok a := by
  induction ds generalizing as with
  | nil => exact fun d hd => absurd hd List.not_mem_nil
  | cons d rest ih =>
    obtain ⟨a, ha, bs, hbs, -⟩ := each_cons_iff.mp h
    exact List.forall_mem_cons.mpr ⟨⟨a, ha⟩, ih hbs⟩

/-- Two lists of the same length, the items of the one read as what comes of the items of the other. -/
theorem each_map_iff {ι : Type} {read' : Document → Decoded β} {f f' : ι → Document} {k : α → β}
    {xs : List ι} (h : ∀ x ∈ xs, ∀ b, read' (f' x) = .ok b ↔ ∃ a, read (f x) = .ok a ∧ k a = b)
    {bs : List β} :
    each read' (xs.map f') = .ok bs ↔ ∃ as, each read (xs.map f) = .ok as ∧ as.map k = bs := by
  induction xs generalizing bs with
  | nil =>
    refine ⟨fun hbs => ⟨[], rfl, Except.ok.inj hbs⟩, ?_⟩
    rintro ⟨as, has, rfl⟩
    cases has
    rfl
  | cons x rest ih =>
    have hrest (bs : List β) := @ih (fun y hy => h y (List.mem_cons_of_mem x hy)) bs
    rw [List.map_cons, List.map_cons]
    simp only [each_cons_iff, h x List.mem_cons_self, hrest]
    constructor
    · rintro ⟨_, ⟨a, ha, rfl⟩, _, ⟨as, has, rfl⟩, rfl⟩
      exact ⟨a :: as, ⟨a, ha, as, has, rfl⟩, rfl⟩
    · rintro ⟨_, ⟨a, ha, as, has, rfl⟩, rfl⟩
      exact ⟨_, ⟨a, ha, rfl⟩, _, ⟨as, has, rfl⟩, rfl⟩

end Each

namespace Record

variable {σ : Type} {r : Record σ}

/-- A field that the record has and that was not met before. -/
theorem readFields_cons {field : Field σ} {seen : List String} {acc acc' : σ} {name : String}
    {d : Document} {rest : List (String × Document)}
    (hfield : r.fields.find? (·.name == name) = some field) (hnew : seen.contains name = false)
    (hread : field.read d acc = .ok acc') :
    r.readFields seen acc ((name, d) :: rest) = r.readFields (name :: seen) acc' rest := by
  rw [readFields, hfield]
  dsimp only
  rw [hnew, hread]
  rfl

/-- A field that is refused. -/
theorem readFields_cons_error {field : Field σ} {seen : List String} {acc : σ} {name : String}
    {d : Document} {rest : List (String × Document)} {f : Failure}
    (hfield : r.fields.find? (·.name == name) = some field) (hnew : seen.contains name = false)
    (hread : field.read d acc = .error f) : r.readFields seen acc ((name, d) :: rest) = .error f := by
  rw [readFields, hfield]
  dsimp only
  rw [hnew, hread]
  rfl

/-- A name that the record does not have. -/
theorem readFields_other {seen : List String} {acc : σ} {name : String} {d : Document}
    {rest : List (String × Document)} (hopen : r.closed = false)
    (hnone : r.fields.find? (·.name == name) = none) (hignore : ignore d = .ok ()) :
    r.readFields seen acc ((name, d) :: rest) = r.readFields seen acc rest := by
  rw [readFields, hnone]
  dsimp only
  rw [hopen, hignore]
  rfl

/-- A record that was written in full. -/
theorem decode_mapping {src : Source} {start acc : σ} {seen : List String}
    {fields : List (String × Document)} (hread : r.readFields [] start fields = .ok (seen, acc))
    (hmissing : r.checkMissing seen = .ok ()) :
    r.decode src start (.mapping fields none) = .ok acc := by
  rw [decode, hread]
  show (do checkStop none; r.checkMissing seen; return acc) = _
  rw [hmissing]
  rfl

end Record

namespace Record

variable {σ : Type} {r : Record σ}

theorem checkMissing_mono {seen met : List String} (hsub : ∀ n ∈ seen, n ∈ met)
    (h : r.checkMissing seen = .ok ()) : r.checkMissing met = .ok () := by
  have hnone : (r.fields.find? fun f => f.required && !met.contains f.name) = none := by
    rw [checkMissing] at h
    split at h
    · cases h
    · rename_i hseen
      rw [List.find?_eq_none] at hseen ⊢
      intro f hf hmissing
      refine hseen f hf ?_
      rw [Bool.and_eq_true, Bool.not_eq_true', List.contains_eq_mem, decide_eq_false_iff_not] at hmissing ⊢
      exact ⟨hmissing.1, fun hmem => hmissing.2 (hsub _ hmem)⟩
  rw [checkMissing, hnone]

/-! A field that has a part of the record to itself can be put anywhere among the others: they are read
as without it. -/

section Insert
variable {field : Field σ} {name : String} {d : Document} {put : σ → σ}
  (hfield : r.fields.find? (·.name == name) = some field)
  (hread : ∀ a, field.read d a = .ok (put a))
  (hothers : ∀ other ∈ r.fields, other.name ≠ name → ∀ e a b, other.read e a = .ok b →
    other.read e (put a) = .ok (put b))
include hothers

/-- What follows the field is read as without it. -/
theorem readFields_past {fields : List (String × Document)} (hname : name ∉ fields.map Prod.fst)
    {seen met seen' : List String} (hseen : ∀ n, n ∈ met ↔ n = name ∨ n ∈ seen) {a b : σ}
    (h : r.readFields seen a fields = .ok (seen', b)) :
    ∃ met', r.readFields met (put a) fields = .ok (met', put b) ∧
      ∀ n, n ∈ met' ↔ n = name ∨ n ∈ seen' := by
  induction fields generalizing seen met a with
  | nil =>
    cases h
    exact ⟨met, rfl, hseen⟩
  | cons f rest ih =>
    obtain ⟨n, e⟩ := f
    rw [List.map_cons, List.mem_cons, not_or] at hname
    rw [readFields] at h
    split at h
    · rename_i other hother
      split at h
      · cases h
      · rename_i hnew
        obtain ⟨acc, hacc, h⟩ := ok_of_bind h
        have hmet : met.contains n = false := by
          rw [List.contains_eq_mem, decide_eq_true_eq] at hnew
          rw [List.contains_eq_mem, decide_eq_false_iff_not, hseen]
          exact not_or.mpr ⟨Ne.symm hname.1, hnew⟩
        have hn : other.name = n := by simpa using List.find?_some hother
        have hacc' := hothers other (List.mem_of_find?_eq_some hother)
          (hn ▸ Ne.symm hname.1) e a acc hacc
        have hseen' (m : String) : m ∈ n :: met ↔ m = name ∨ m ∈ n :: seen := by
          rw [List.mem_cons, List.mem_cons, hseen, or_left_comm]
        obtain ⟨met', hrest, hmem⟩ := ih hname.2 hseen' h
        exact ⟨met', (readFields_cons hother hmet hacc').trans hrest, hmem⟩
    · rename_i hnone
      split at h
      · cases h
      · rename_i hclosed
        obtain ⟨_, hignore, h⟩ := ok_of_bind h
        obtain ⟨met', hrest, hmem⟩ := ih hname.2 hseen h
        exact ⟨met', (readFields_other (Bool.eq_false_iff.mpr hclosed) hnone hignore).trans hrest, hmem⟩

include hfield hread

theorem readFields_insert {before after : List (String × Document)}
    (hname : name ∉ (before ++ after).map Prod.fst) {seen seen' : List String} (hseen : name ∉ seen)
    {a b : σ} (h : r.readFields seen a (before ++ after) = .ok (seen', b)) :
    ∃ met', r.readFields seen a (before ++ (name, d) :: after) = .ok (met', put b) ∧
      ∀ n, n ∈ met' ↔ n = name ∨ n ∈ seen' := by
  induction before generalizing seen a with
  | nil =>
    have hnew : seen.contains name = false := by
      rw [List.contains_eq_mem, decide_eq_false_iff_not]
      exact hseen
    obtain ⟨met', hrest, hmem⟩ := readFields_past hothers hname (fun n => List.mem_cons) h
    exact ⟨met', (readFields_cons hfield hnew (hread a)).trans hrest, hmem⟩
  | cons f rest ih =>
    obtain ⟨n, e⟩ := f
    rw [List.cons_append, List.map_cons, List.mem_cons, not_or] at hname
    rw [List.cons_append, readFields] at h
    rw [List.cons_append]
    split at h
    · rename_i other hother
      split at h
      · cases h
      · rename_i hnew
        obtain ⟨acc, hacc, h⟩ := ok_of_bind h
        have hseen' : name ∉ n :: seen := by
          rw [List.mem_cons, not_or]
          exact ⟨hname.1, hseen⟩
        rw [readFields_cons hother (Bool.eq_false_iff.mpr hnew) hacc]
        exact ih hname.2 hseen' h
    · rename_i hnone
      split at h
      · cases h
      · rename_i hclosed
        obtain ⟨_, hignore, h⟩ := ok_of_bind h
        rw [readFields_other (Bool.eq_false_iff.mpr hclosed) hnone hignore]
        exact ih hname.2 hseen h

/-- A record is read with the field if it is read without. -/
theorem decode_insert {src : Source} {start b : σ} {before after : List (String × Document)}
    {stop : Option Break} (hname : name ∉ (before ++ after).map Prod.fst)
    (h : r.decode src start (.mapping (before ++ after) stop) = .ok b) :
    r.decode src start (.mapping (before ++ (name, d) :: after) stop) = .ok (put b) := by
  rw [decode] at h ⊢
  obtain ⟨⟨seen, acc⟩, hread', h⟩ := ok_of_bind h
  obtain ⟨_, hstop, h⟩ := ok_of_bind h
  obtain ⟨_, hmissing, h⟩ := ok_of_bind h
  cases h
  obtain ⟨met, hmet, hmem⟩ := readFields_insert hfield hread hothers hname List.not_mem_nil hread'
  have hmissing' := checkMissing_mono (fun n hn => (hmem n).mpr (.inr hn)) hmissing
  rw [hmet]
  show (do checkStop stop; r.checkMissing met; return put b) = _
  rw [hstop, hmissing']
  rfl

end Insert

end Record

/-! ### What is read -/

theorem unfit_ne_ok {α : Type} (d : Document) (expected : String) (a : α) :
    unfit d expected ≠ .ok a := by
  cases d <;> exact nofun

theorem noChoice_ne_ok {α : Type} (src : Source) (d : Document) (a : α) : noChoice src d ≠ .ok a := by
  cases src <;> cases d <;> exact nofun

theorem toJson_of_json {src : Source} {d : Document} {v : Json} (h : json src d = .ok v) :
    d.toJson src = .ok v := by
  rw [json] at h
  cases hv : d.toJson src with
  | error f =>
    rw [hv] at h
    cases h
  | ok w =>
    rw [hv] at h
    cases h
    rfl

theorem isFinite_of_json {src : Source} {d : Document} {v : Json} (h : json src d = .ok v) :
    v.isFinite = true :=
  Document.isFinite_of_toJson d (toJson_of_json h)

section Read
variable {α : Type} {P : α → Prop} {read : Document → Decoded α}

theorem optional_all {d : Document} (hread : ∀ a, read d = .ok a → P a) {x : Option α}
    (h : optional read d = .ok x) : ∀ a ∈ x, P a := by
  rw [optional] at h
  split_ifs at h with hnull
  · cases h
    exact fun a ha => nomatch ha
  · obtain ⟨b, hb, h⟩ := ok_of_map h
    cases h
    rintro _ ⟨⟩
    exact hread b hb

theorem each_all {ds : List Document} (hread : ∀ d ∈ ds, ∀ a, read d = .ok a → P a) {as : List α}
    (h : each read ds = .ok as) : ∀ a ∈ as, P a := by
  induction ds generalizing as with
  | nil =>
    cases h
    exact fun a ha => absurd ha List.not_mem_nil
  | cons d rest ih =>
    obtain ⟨hd, hrest⟩ := List.forall_mem_cons.mp hread
    rw [each] at h
    obtain ⟨b, hb, h⟩ := ok_of_bind h
    obtain ⟨bs, hbs, h⟩ := ok_of_bind h
    cases h
    exact List.forall_mem_cons.mpr ⟨hd b hb, ih hrest hbs⟩

theorem list_all {d : Document} (hread : ∀ e ∈ d.inner, ∀ a, read e = .ok a → P a) {as : List α}
    (h : list read d = .ok as) : ∀ a ∈ as, P a := by
  rw [list.eq_def] at h
  split at h
  · obtain ⟨bs, hbs, h⟩ := ok_of_bind h
    obtain ⟨_, _, h⟩ := ok_of_bind h
    cases h
    exact each_all hread hbs
  · cases h
    exact fun a ha => absurd ha List.not_mem_nil
  · exact absurd h (unfit_ne_ok _ _ _)

end Read

namespace Record

variable {σ : Type} {r : Record σ} {P : σ → Prop}

/-- What a field keeps of the record when it is read from a document. -/
def Keeps (P : σ → Prop) (field : Field σ) (d : Document) : Prop :=
  ∀ a b, P a → field.read d a = .ok b → P b

theorem readFields_keeps {fields : List (String × Document)}
    (hfields : ∀ field ∈ r.fields, ∀ f ∈ fields, Keeps P field f.2) {seen seen' : List String} {a b : σ}
    (ha : P a) (h : r.readFields seen a fields = .ok (seen', b)) : P b := by
  induction fields generalizing seen a with
  | nil =>
    cases h
    exact ha
  | cons f rest ih =>
    have hrest : ∀ field ∈ r.fields, ∀ g ∈ rest, Keeps P field g.2 := fun field hfield g hg =>
      hfields field hfield g (List.mem_cons_of_mem f hg)
    rw [readFields] at h
    split at h
    · rename_i field hfield
      split at h
      · cases h
      · obtain ⟨acc, hacc, h⟩ := ok_of_bind h
        have hfirst := hfields field (List.mem_of_find?_eq_some hfield) f List.mem_cons_self
        exact ih hrest (hfirst a acc ha hacc) h
    · split at h
      · cases h
      · obtain ⟨_, _, h⟩ := ok_of_bind h
        exact ih hrest ha h

theorem readItems_keeps (stop : Option Break) (fields : List (Field σ)) (items : List Document)
    (hfields : ∀ field ∈ fields, ∀ d ∈ items, Keeps P field d) {i : Nat} {a b : σ} {left : List Document}
    (ha : P a) (h : r.readItems stop i fields a items = .ok (b, left)) : P b := by
  induction fields generalizing i a items with
  | nil =>
    rw [readItems] at h
    cases h
    exact ha
  | cons field fields ih =>
    obtain ⟨hfirst, hrest⟩ := List.forall_mem_cons.mp hfields
    cases items with
    | nil =>
      rw [readItems] at h
      obtain ⟨_, _, h⟩ := ok_of_bind h
      split at h
      · cases h
      · exact ih [] hrest ha h
    | cons item items =>
      rw [readItems] at h
      obtain ⟨acc, hacc, h⟩ := ok_of_bind h
      refine ih items (fun other hother d hd => ?_) (hfirst item List.mem_cons_self a acc ha hacc) h
      exact hrest other hother d (List.mem_cons_of_mem item hd)

/-- What every field keeps holds of a record that is read, if it holds at the start. -/
theorem decode_keeps {d : Document} (hfields : ∀ field ∈ r.fields, ∀ e ∈ d.inner, Keeps P field e)
    {src : Source} {start b : σ} (hstart : P start) (h : r.decode src start d = .ok b) : P b := by
  rw [decode.eq_def] at h
  split at h
  · obtain ⟨⟨seen, acc⟩, hread, h⟩ := ok_of_bind h
    obtain ⟨_, _, h⟩ := ok_of_bind h
    obtain ⟨_, _, h⟩ := ok_of_bind h
    cases h
    exact readFields_keeps (fun field hfield f hf => hfields field hfield f.2 (List.mem_map_of_mem hf)) hstart
      hread
  · split at h
    · cases h
    · obtain ⟨⟨acc, left⟩, hread, h⟩ := ok_of_bind h
      obtain ⟨_, _, h⟩ := ok_of_bind h
      cases h
      exact readItems_keeps _ r.fields _ hfields hstart hread
  · obtain ⟨_, _, h⟩ := ok_of_bind h
    cases h
    exact hstart
  · exact absurd h (unfit_ne_ok _ _ _)

end Record

end BucketQuery.Decode
