import BucketQuery.Compile.DateRange
import BucketQuery.Proofs.Calendar.Order
import BucketQuery.Proofs.Sql.Meaning
import BucketQuery.Proofs.Text.Bytes
import Mathlib.Data.List.Forall2

/-! Ranges of dates keep the buckets in the range.

A table has a row for each bucket, with the start of the bucket in its columns: as text, as the numbers
of a key, or both. A range is tested on these columns, by the bytes of texts and the values of numbers,
and the tests let a row pass exactly when its bucket is in the range, bucket and bounds cut off at the
size of a bucket (`dateFilters_keep_iff`). The tests of the key are there to narrow a search, and the
last part of the theorem says that they take no bucket away that the column keeps. -/
namespace BucketQuery

open Calendar (Date Instant)
open Sql (Cells Row Truth)

/-! ### Comparisons of cells -/

namespace Sql

/-- Numbers by their values, texts by their bytes; a number and a text are only unequal. A pattern
without signs of its own matches itself. -/
def Cells.bytewise : Cells (Rat ⊕ List UInt8) where
  number := .inl
  text s := .inr (Text.bytes s)
  compare
    | op, .inl x, .inl y => holds x y op
    | .eq, .inr s, .inr t => s == t
    | .ne, .inr s, .inr t => s != t
    | .gt, .inr s, .inr t => decide (t < s)
    | .lt, .inr s, .inr t => decide (s < t)
    | .ge, .inr s, .inr t => decide (t ≤ s)
    | .le, .inr s, .inr t => decide (s ≤ t)
    | op, .inl _, .inr _ | op, .inr _, .inl _ => op == .ne
  like a pattern := a == pattern
  numbers _ _ _ := rfl

theorem Cells.compares_int {Cell : Type} (w : Cells Cell) (op : Filter.Comparison) (m n : Int) :
    w.compares op (w.value (.int m)) (w.value (.int n)) = .true ↔ holds m n op = true :=
  Iff.trans Truth.ofBool_eq_true (by rw [w.numbers])

/-- A comparison with a number is known where the column has a cell. -/
theorem Cells.compares_int_known {Cell : Type} (w : Cells Cell) (op : Filter.Comparison)
    {cell : Option Cell} (h : cell ≠ none) (v : Int) :
    w.compares op cell (w.value (.int v)) ≠ .unknown := by
  cases cell with
  | none => exact absurd rfl h
  | some a =>
    show Truth.ofBool _ ≠ .unknown
    cases w.compare op a (w.number v) <;> decide

end Sql

namespace Compile

/-- On the inner side of a bound or equal to it. -/
def Side.Keeps {α : Type} [LT α] (bound x : α) : Side → Prop
  | .lower => ¬ x < bound
  | .upper => ¬ bound < x

theorem Side.keeps_mono {α β : Type} [LT α] [LT β] {a b : α} {c d : β} (hlt : c < d → a < b)
    (hgt : d < c → b < a) (side : Side) : side.Keeps a b → side.Keeps c d := by
  cases side with
  | lower => exact mt hgt
  | upper => exact mt hlt

theorem Side.keeps_congr {α β : Type} [LT α] [LT β] {a b : α} {c d : β} (hlt : a < b ↔ c < d)
    (hgt : b < a ↔ d < c) (side : Side) : side.Keeps a b ↔ side.Keeps c d := by
  cases side with
  | lower => exact not_congr hgt
  | upper => exact not_congr hlt

theorem compares_text_iff (side : Side) (s t : String) :
    Cells.bytewise.compares side.inclusive (Cells.bytewise.value (.text s))
      (Cells.bytewise.value (.text t)) = .true ↔ side.Keeps t s := by
  cases side with
  | lower => exact Truth.ofBool_eq_true.trans (decide_eq_true_iff.trans (not_congr Text.bytes_lt_iff))
  | upper => exact Truth.ofBool_eq_true.trans (decide_eq_true_iff.trans (not_congr Text.bytes_lt_iff))

theorem compares_int_iff {Cell : Type} (w : Cells Cell) (side : Side) (m n : Int) :
    w.compares side.inclusive (w.value (.int m)) (w.value (.int n)) = .true ↔ side.Keeps n m := by
  rw [w.compares_int]
  cases side with
  | lower => exact decide_eq_true_iff.trans (Rat.intCast_le_intCast.trans Int.not_lt.symm)
  | upper => exact decide_eq_true_iff.trans (Rat.intCast_le_intCast.trans Int.not_lt.symm)

theorem compares_strict_iff {Cell : Type} (w : Cells Cell) (side : Side) (m n : Int) :
    w.compares side.strict (w.value (.int m)) (w.value (.int n)) = .true ↔ ¬ side.Keeps m n := by
  rw [w.compares_int]
  cases side with
  | lower => exact decide_eq_true_iff.trans (Rat.intCast_lt_intCast.trans Classical.not_not.symm)
  | upper => exact decide_eq_true_iff.trans (Rat.intCast_lt_intCast.trans Classical.not_not.symm)

theorem compares_eq_iff {Cell : Type} (w : Cells Cell) (m n : Int) :
    w.compares .eq (w.value (.int m)) (w.value (.int n)) = .true ↔ m = n := by
  rw [w.compares_int]
  exact decide_eq_true_iff.trans Rat.intCast_inj

/-! ### The test of the key -/

section Key
variable {Cell : Type} (w : Cells Cell) (row : Row Cell)

theorem truth_or (a b : Sql.Expr) :
    (Sql.Expr.chain [(.and, a), (.or, b)]).truth w row = (a.truth w row).or (b.truth w row) := by
  rw [Sql.Expr.truth_chain]
  show Truth.or ((a.truth w row).and .true) (Truth.or ((b.truth w row).and .true) .false) = _
  rw [Truth.and_true, Truth.and_true, Truth.or_false]

theorem truth_and (a b : Sql.Expr) :
    (Sql.Expr.chain [(.and, a), (.and, b)]).truth w row = (a.truth w row).and (b.truth w row) := by
  rw [Sql.Expr.truth_chain]
  show Truth.or ((a.truth w row).and ((b.truth w row).and .true)) .false = _
  rw [Truth.and_true, Truth.or_false]

theorem keeps_cons_iff (side : Side) (v x : Int) (vs xs : List Int) :
    side.Keeps (v :: vs) (x :: xs) ↔ ¬ side.Keeps x v ∨ x = v ∧ side.Keeps vs xs := by
  cases side with
  | lower =>
    rw [Side.Keeps, Side.Keeps, Side.Keeps, List.cons_lt_cons_iff, Classical.not_not]
    rcases Int.lt_trichotomy x v with h | rfl | h
    · simp [h, Int.lt_asymm h, Int.ne_of_lt h]
    · simp
    · simp [h, Int.lt_asymm h, Int.ne_of_gt h]
  | upper =>
    rw [Side.Keeps, Side.Keeps, Side.Keeps, List.cons_lt_cons_iff, Classical.not_not, eq_comm (a := v)]
    rcases Int.lt_trichotomy x v with h | rfl | h
    · simp [h, Int.lt_asymm h, Int.ne_of_lt h]
    · simp
    · simp [h, Int.lt_asymm h, Int.ne_of_gt h]

theorem keyBound_cons (side : Side) (column : String) (v : Int) {rest : List (String × Int)}
    (h : rest ≠ []) :
    keyBound side ((column, v) :: rest) =
      .nested (.chain [(.and, .compare column side.strict (.int v)),
        (.or, .nested (.chain [(.and, .compare column .eq (.int v)), (.and, keyBound side rest)]))]) := by
  cases rest with
  | nil => exact absurd rfl h
  | cons part rest => rfl

/-- Keys sort by their first columns, then by their second, and so on. -/
theorem keyBound_true_iff (side : Side) {key : List (String × Int)} {xs : List Int} (hne : key ≠ [])
    (h : List.Forall₂ (fun part x => row part.1 = w.value (.int x)) key xs) :
    (keyBound side key).truth w row = .true ↔ side.Keeps (key.map Prod.snd) xs := by
  induction key using keyBound.induct side generalizing xs with
  | case1 => exact absurd rfl hne
  | case2 column v =>
    cases h with
    | @cons _ x _ _ hcell hrest =>
      cases hrest
      show w.compares _ (row column) _ = _ ↔ side.Keeps [v] [x]
      rw [hcell, compares_int_iff]
      exact Side.keeps_congr (by simp [List.cons_lt_cons_iff]) (by simp [List.cons_lt_cons_iff]) side
  | case3 column v rest hrest ih =>
    cases h with
    | @cons _ x _ xs hcell hcells =>
      have htie := ih hrest hcells
      have hstrict := compares_strict_iff w side x v
      have heq := compares_eq_iff w x v
      rw [← hcell] at hstrict heq
      rw [keyBound_cons side column v hrest]
      show (Sql.Expr.chain _).truth w row = _ ↔ side.Keeps (v :: rest.map Prod.snd) (x :: xs)
      rw [truth_or, Truth.or_eq_true, keeps_cons_iff]
      refine or_congr hstrict ?_
      show (Sql.Expr.chain _).truth w row = _ ↔ _
      rw [truth_and, Truth.and_eq_true]
      exact and_congr heq htie

end Key

/-! ### Buckets -/

end Compile

/-- An instant without what the bounds of a bucket size leave out. -/
def Granularity.truncate (t : Instant) : Granularity → Instant
  | .min15 | .min30 => t.wholeSecond
  | .hourly => t.atHour
  | .daily => .midnight t.date
  | .monthly => .midnight t.date.monthStart
  | .yearly => .midnight t.date.yearStart

/-- The columns that tell the bucket of a row, with their values where it starts at `s`. -/
def Granularity.columns (s : Instant) : Granularity → List (String × Sql.Value)
  | .min15 | .min30 | .hourly =>
    [("timeInterval", .text s.text), ("year", .int s.date.year), ("month", .int s.date.month),
      ("day", .int s.date.day), ("hour", .int s.hour)]
  | .daily => [("timeInterval", .text s.date.text)]
  | .monthly => [("yearMonth", .text s.date.monthText)]
  | .yearly => [("year", .int s.date.year)]

/-- A row of the table for a bucket size, where the bucket starts at `s`. -/
structure BucketRow (g : Granularity) (s : Instant) (row : Row (Rat ⊕ List UInt8)) : Prop where
  on_the_hour : g = .hourly → s.second % 3600 = 0
  cells : ∀ c ∈ g.columns s, row c.1 = Cells.bytewise.value c.2

/-- A row with the columns of its bucket, and no others. -/
def Granularity.row (g : Granularity) (s : Instant) : Row (Rat ⊕ List UInt8) := fun column =>
  ((g.columns s).lookup column).bind Cells.bytewise.value

theorem Granularity.row_bucket {g : Granularity} {s : Instant}
    (h : g = .hourly → s.second % 3600 = 0) : BucketRow g s (g.row s) := by
  refine ⟨h, fun c hc => ?_⟩
  cases g with
  | min15 | min30 | hourly =>
    simp only [columns, List.mem_cons, List.not_mem_nil, or_false] at hc
    rcases hc with rfl | rfl | rfl | rfl | rfl <;> rfl
  | daily | monthly | yearly =>
    rw [columns, List.mem_singleton] at hc
    rw [hc]
    rfl

namespace Compile

section Bucket
variable {g : Granularity} (tables : Tables) {s : Instant} {row : Row (Rat ⊕ List UInt8)}

/-- The routed column has what a bound at the bucket itself would be. -/
theorem dateColumn_cell (h : BucketRow g s row) :
    row (route g tables).dateColumn = Cells.bytewise.value ((route g tables).boundFormat.value s) := by
  cases g with
  | hourly =>
    show _ = Cells.bytewise.value (.text s.atHour.text)
    rw [Instant.atHour_text (h.on_the_hour rfl)]
    exact h.cells _ List.mem_cons_self
  | min15 | min30 | daily | monthly | yearly => exact h.cells _ List.mem_cons_self

/-- Bounds sort as the instants they are made from, without what they leave out. -/
theorem compares_bound_iff (side : Side) {t : Instant} (hs : s.date.Unsigned) (ht : t.date.Unsigned) :
    Cells.bytewise.compares side.inclusive (Cells.bytewise.value ((route g tables).boundFormat.value s))
        (Cells.bytewise.value ((route g tables).boundFormat.value t)) = .true ↔
      side.Keeps (g.truncate t) (g.truncate s) := by
  cases g with
  | min15 | min30 =>
    refine (compares_text_iff side s.text t.text).trans (Side.keeps_congr ?_ ?_ side)
    · exact Instant.text_lt_iff ht hs
    · exact Instant.text_lt_iff hs ht
  | hourly =>
    refine (compares_text_iff side s.atHour.text t.atHour.text).trans (Side.keeps_congr ?_ ?_ side)
    · exact Instant.atHour_text_lt_iff ht hs
    · exact Instant.atHour_text_lt_iff hs ht
  | daily =>
    refine (compares_text_iff side s.date.text t.date.text).trans (Side.keeps_congr ?_ ?_ side)
    · exact (Date.text_lt_iff ht hs).trans (Instant.midnight_lt_iff _ _).symm
    · exact (Date.text_lt_iff hs ht).trans (Instant.midnight_lt_iff _ _).symm
  | monthly =>
    refine (compares_text_iff side s.date.monthText t.date.monthText).trans
      (Side.keeps_congr ?_ ?_ side)
    · exact (Date.monthText_lt_iff ht hs).trans (Instant.midnight_lt_iff _ _).symm
    · exact (Date.monthText_lt_iff hs ht).trans (Instant.midnight_lt_iff _ _).symm
  | yearly =>
    refine (compares_int_iff Cells.bytewise side s.date.year t.date.year).trans
      (Side.keeps_congr ?_ ?_ side)
    · exact (Date.year_lt_iff _ _).trans (Instant.midnight_lt_iff _ _).symm
    · exact (Date.year_lt_iff _ _).trans (Instant.midnight_lt_iff _ _).symm


theorem columnFilter_true_iff (h : BucketRow g s row) (hs : s.date.Unsigned)
    {start finish : Option Instant} (hstart : ∀ t ∈ start, t.date.Unsigned)
    (hfinish : ∀ t ∈ finish, t.date.Unsigned) :
    (∀ e ∈ columnFilter (route g tables) start finish, e.truth .bytewise row = .true) ↔
      (∀ t ∈ start, Side.lower.Keeps (g.truncate t) (g.truncate s)) ∧
        ∀ t ∈ finish, Side.upper.Keeps (g.truncate t) (g.truncate s) := by
  have hside (side : Side) (t : Instant) (ht : t.date.Unsigned) :
      Cells.bytewise.compares side.inclusive (row (route g tables).dateColumn)
          (Cells.bytewise.value ((route g tables).boundFormat.value t)) = .true ↔
        side.Keeps (g.truncate t) (g.truncate s) :=
    dateColumn_cell tables h ▸ compares_bound_iff tables side hs ht
  cases start with
  | none =>
    cases finish with
    | none => simp [columnFilter]
    | some e =>
      refine List.forall_mem_singleton.trans ((hside .upper e (hfinish e rfl)).trans ?_)
      simp
  | some b =>
    cases finish with
    | none =>
      refine List.forall_mem_singleton.trans ((hside .lower b (hstart b rfl)).trans ?_)
      simp
    | some e =>
      have hboth := and_congr (hside .lower b (hstart b rfl)) (hside .upper e (hfinish e rfl))
      refine List.forall_mem_singleton.trans ((Truth.and_eq_true.trans hboth).trans ?_)
      simp

theorem hourKey_lt_iff (a b : Instant) :
    hourKey.map (KeyPart.value a) < hourKey.map (KeyPart.value b) ↔ a.atHour < b.atHour := by
  rw [Instant.atHour_lt_iff, Date.eq_iff_figures]
  show _ ↔ a.date.Before b.date ∨ _
  simp only [hourKey, List.map_cons, List.map_nil, KeyPart.value, List.cons_lt_cons_iff,
    List.lt_irrefl, Date.Before, and_false, or_false, Int.ofNat_lt, Int.natCast_inj, or_assoc,
    and_or_left, and_assoc]

/-- Keys do not go on inside a bucket. -/
theorem truncate_lt_of_key {a b : Instant}
    (h : (route g tables).key.map (KeyPart.value a) < (route g tables).key.map (KeyPart.value b)) :
    g.truncate a < g.truncate b := by
  cases g with
  | min15 | min30 => exact Instant.lt_of_atHour_lt ((hourKey_lt_iff a b).mp h)
  | hourly => exact (hourKey_lt_iff a b).mp h
  | daily | monthly | yearly => exact absurd h (List.lt_irrefl _)

theorem key_mem_columns {part : KeyPart} (h : part ∈ (route g tables).key) :
    (part.column, Sql.Value.int (part.value s)) ∈ g.columns s := by
  cases g with
  | min15 | min30 | hourly => cases part <;> simp [Granularity.columns, KeyPart.column, KeyPart.value]
  | daily | monthly | yearly => cases h

/-- A row on the inner side of a bound has its key on that side. -/
theorem keyFilter_true (h : BucketRow g s row) (side : Side) {bound : Option Instant}
    (hbound : ∀ t ∈ bound, side.Keeps (g.truncate t) (g.truncate s)) :
    ∀ e ∈ keyFilter (route g tables) side bound, e.truth .bytewise row = .true := by
  intro e he
  cases bound with
  | none => cases he
  | some t =>
    rw [keyFilter] at he
    split at he
    · cases he
    · rename_i hkey
      rw [List.mem_singleton.mp he]
      have hne : (route g tables).keyValues t ≠ [] := by
        rw [Route.keyValues, ne_eq, List.map_eq_nil_iff, ← List.isEmpty_iff]
        exact hkey
      have hcells : List.Forall₂ (fun part x => row part.1 = Cells.bytewise.value (.int x))
          ((route g tables).keyValues t) ((route g tables).key.map (KeyPart.value s)) := by
        rw [Route.keyValues, List.forall₂_map_left_iff, List.forall₂_map_right_iff, List.forall₂_same]
        exact fun part hpart => h.cells _ (key_mem_columns tables hpart)
      rw [keyBound_true_iff _ row side hne hcells, Route.keyValues, List.map_map]
      exact Side.keeps_mono (truncate_lt_of_key tables) (truncate_lt_of_key tables) side (hbound t rfl)

end Bucket

/-- A row passes the tests of a range exactly when its bucket is in the range, and the tests of the key
take away no row that the test of the column keeps. -/
theorem dateFilters_keep_iff {g : Granularity} (tables : Tables) {start finish : Option Instant}
    {s : Instant} {row : Row (Rat ⊕ List UInt8)} (hstart : ∀ t ∈ start, t.date.Unsigned)
    (hfinish : ∀ t ∈ finish, t.date.Unsigned) (hs : s.date.Unsigned) (hrow : BucketRow g s row) :
    ((∀ e ∈ dateFilters (route g tables) start finish, e.truth .bytewise row = .true) ↔
      (∀ t ∈ start, g.truncate t ≤ g.truncate s) ∧ ∀ t ∈ finish, g.truncate s ≤ g.truncate t) ∧
    ((∀ e ∈ columnFilter (route g tables) start finish, e.truth .bytewise row = .true) →
      (∀ e ∈ keyFilter (route g tables) .lower start, e.truth .bytewise row = .true) ∧
        ∀ e ∈ keyFilter (route g tables) .upper finish, e.truth .bytewise row = .true) := by
  have hcolumn := columnFilter_true_iff tables hrow hs hstart hfinish
  have hkeys (hkept : ∀ e ∈ columnFilter (route g tables) start finish,
      e.truth .bytewise row = .true) :=
    And.intro (keyFilter_true tables hrow .lower (hcolumn.mp hkept).1)
      (keyFilter_true tables hrow .upper (hcolumn.mp hkept).2)
  refine ⟨Iff.trans ?_ hcolumn, hkeys⟩
  rw [dateFilters, List.forall_mem_append, List.forall_mem_append]
  constructor
  · intro h
    exact h.1.1
  · intro h
    exact ⟨⟨h, (hkeys h).1⟩, (hkeys h).2⟩

def newYear : Instant := .midnight ⟨2017, 1, 1, by decide⟩

/-- Half way through the leap second in front of the year. -/
def leapSecond : Instant := ⟨⟨2016, 12, 31, by decide⟩, 86399, 1500000000, by decide⟩

-- The bound is cut off at second 60, which is behind 23:59:59 and ahead of the new year.
theorem dateFilters_keep_new_year :
    leapSecond.date.Unsigned ∧ newYear.date.Unsigned ∧
      BucketRow .min15 newYear (Granularity.min15.row newYear) ∧
      ∀ e ∈ dateFilters (route .min15 {}) (some leapSecond) (some newYear),
        e.truth .bytewise (Granularity.min15.row newYear) = .true := by
  have hleap : leapSecond.date.Unsigned := ⟨by decide, by decide⟩
  have hyear : newYear.date.Unsigned := ⟨by decide, by decide⟩
  have hrow : BucketRow .min15 newYear (Granularity.min15.row newYear) :=
    Granularity.row_bucket (by decide)
  refine ⟨hleap, hyear, hrow, (dateFilters_keep_iff {} ?_ ?_ hyear hrow).1.mpr ⟨?_, ?_⟩⟩
  · exact fun t ht => Option.some.inj ht ▸ hleap
  · exact fun t ht => Option.some.inj ht ▸ hyear
  · exact fun t ht => Option.some.inj ht ▸ by decide
  · exact fun t ht => Option.some.inj ht ▸ by decide

end Compile

end BucketQuery
