import BucketQuery.Proofs.Compile.Emission
import BucketQuery.Proofs.Compile.Failure
import BucketQuery.Proofs.Filter.Rows
import BucketQuery.Section.Decode
import Mathlib

/-! What becomes of half-filled rows.

`rowsWithin` lists the rows of a filter that are in reach, straight from the value that the editor sent.
Main statement, `half_filled_rows`: a request is read whatever its rows hold, a compiler that lets unknown
intervals pass compiles it, and of the rows in reach each is one test of the filter or has one warning.
It is a test exactly when its field, its operator and its value are all there and in order (`IsFilled`). -/
namespace BucketQuery

namespace Text

theorem eq_or_of_toLower {c k : Char} (h : c.toLower = k) : c = k.toUpper ∨ c = k := by
  subst h
  by_cases hupper : c.isUpper = true
  · have hlower : ¬ c.isLower = true := fun h => Char.not_isUpper_of_isLower h hupper
    exact .inl (by rw [Char.toUpper_toLower_eq_toUpper, Char.toUpper_eq_of_not_isLower hlower])
  · exact .inr (Char.toLower_eq_of_not_isUpper hupper).symm

theorem sameLetters_or_iff (s : String) :
    sameLetters s "or" = true ↔ s ∈ ["OR", "Or", "oR", "or"] := by
  rw [sameLetters, beq_iff_eq, ← String.toList_inj, String.toLower, String.toLower, String.toList_map,
    String.toList_map]
  constructor
  · intro h
    have hlower : s.toList.map Char.toLower = ['o', 'r'] := h
    obtain ⟨a, rest, hs, ha, hrest⟩ := List.map_eq_cons_iff.mp hlower
    obtain ⟨b, rest', rfl, hb, hrest'⟩ := List.map_eq_cons_iff.mp hrest
    obtain rfl := List.map_eq_nil_iff.mp hrest'
    have hofList : s = String.ofList [a, b] := by rw [← hs, String.ofList_toList]
    rw [hofList]
    rcases eq_or_of_toLower ha with rfl | rfl <;> rcases eq_or_of_toLower hb with rfl | rfl <;> decide
  · revert s
    decide

end Text

/-! ### Rows that are filled -/

namespace Filter

/-- A text names an operator: letter case and blank space around it aside, it is one of its spellings. -/
def Operator.Named (token : String) (op : Operator) : Prop :=
  ((Text.trim token).toUpper, op) ∈ Operator.spellings

/-- A row has all that a test needs: the name of a column, an operator, and a value of its form. -/
structure IsFilled (row : Json) : Prop where
  field : ∃ name, row.field? "field" = some (.string name) ∧ Sql.isIdentifier (Text.trim name) = true
  operator : ∃ token op shape, row.field? "operator" = some (.string token) ∧
    Operator.Named token op ∧ op.shape? = some shape ∧ shape.Fits (Json.orNull (row.field? "value"))

/-- A value is the word OR, blank space around it aside, in whatever case. -/
def SaysOr (v : Option Json) : Prop :=
  ∃ s, v = some (.string s) ∧ Text.trim s ∈ ["OR", "Or", "oR", "or"]

theorem Operator.named_iff {token : String} {op : Operator} {shape : ValueShape}
    (hshape : op.shape? = some shape) : Operator.Named token op ↔ Operator.ofText token = op := by
  have hspelled : ∀ p ∈ spellings, spellings.lookup p.1 = some p.2 := by decide
  rw [Named, ofText]
  constructor
  · intro h
    rw [hspelled _ h, Option.getD_some]
  · intro h
    cases hlookup : spellings.lookup (Text.trim token).toUpper with
    | none =>
      rw [hlookup] at h
      subst h
      cases hshape
    | some op' =>
      rw [hlookup, Option.getD_some] at h
      subst h
      obtain ⟨before, later, hsplit, -⟩ := List.lookup_eq_some_iff.mp hlookup
      exact hsplit ▸ List.mem_append_right before List.mem_cons_self

/-- What was read of a row can be expressed exactly when the row is filled. -/
theorem Condition.ofRow_expressible_iff (row : Json) : (ofRow row).Expressible ↔ IsFilled row := by
  have hblank : Sql.isIdentifier (Text.trim "") = false := by decide
  constructor
  · intro h
    refine ⟨?_, ?_⟩
    · have hfield := h.field
      rw [ofRow] at hfield
      dsimp only at hfield
      cases hv : row.field? "field" with
      | none =>
        rw [hv] at hfield
        cases hblank.symm.trans hfield
      | some v =>
        rw [hv] at hfield
        cases v with
        | string name => exact ⟨name, rfl, hfield⟩
        | null | bool | number | array | object => cases hblank.symm.trans hfield
    · obtain ⟨op, shape, hop, hshape, hfits⟩ := h.operator
      obtain ⟨v, hv, hop⟩ := Option.bind_eq_some_iff.mp hop
      cases v with
      | string token =>
        exact ⟨token, op, shape, hv, (Operator.named_iff hshape).mpr (Option.some.inj hop), hshape, hfits⟩
      | null => cases hop
      | bool | number | array | object =>
        obtain rfl := Option.some.inj hop
        cases hshape
  · rintro ⟨⟨name, hname, hidentifier⟩, token, op, shape, htoken, hnamed, hshape, hfits⟩
    refine ⟨?_, op, shape, ?_, hshape, hfits⟩
    · rw [ofRow, hname]
      exact hidentifier
    · rw [ofRow, htoken]
      exact congrArg some ((Operator.named_iff hshape).mp hnamed)

/-! ### What is read of a connective -/

theorem connective_or_iff (v : Option Json) : v.elim .and Connective.ofJson = .or ↔ SaysOr v := by
  constructor
  · intro h
    cases v with
    | none => cases h
    | some v =>
      cases v with
      | string s =>
        refine ⟨s, rfl, (Text.sameLetters_or_iff _).mp ?_⟩
        rw [Option.elim_some, Connective.ofJson] at h
        split at h
        · assumption
        · cases h
      | null | bool | number | array | object => cases h
  · rintro ⟨s, rfl, hs⟩
    rw [Option.elim_some, Connective.ofJson, if_pos ((Text.sameLetters_or_iff _).mpr hs)]

theorem Condition.ofRow_negated_iff (row : Json) :
    (ofRow row).negated = true ↔ row.field? "isNot" = some (.bool true) := by
  show (row.field? "isNot").any isOn = true ↔ _
  cases row.field? "isNot" with
  | none => exact iff_of_false nofun nofun
  | some v =>
    cases v with
    | bool b => cases b <;> decide
    | null | number | string | array | object => exact iff_of_false nofun nofun

end Filter

/-! ### Requests -/

namespace Section

open Decode

/-- A request that can be read without a filter is read with one. -/
theorem Query.decode_tree {src : Source} {before after : List (String × Document)} {stop : Option Break}
    {q : Query} {d : Document} {fields : List (String × Json)} {t : Filter.Tree}
    (unnamed : "advancedFilters" ∉ (before ++ after).map Prod.fst)
    (others : Query.decode src (.mapping (before ++ after) stop) = .ok q)
    (value : json src d = .ok (.object fields))
    (htree : Filter.Tree.decode .value (Document.ofJson (.object fields)) = .ok t) :
    Query.decode src (.mapping (before ++ ("advancedFilters", d) :: after) stop) = .ok (q.withTree t) := by
  have hadvanced : Advanced.decode src d = .ok (.tree t) := by
    rw [Advanced.decode, value]
    show Advanced.ofJson (.object fields) = _
    rw [Advanced.ofJson, htree]
  have hnull : d.isNull = false := by
    rw [Bool.eq_false_iff]
    intro h
    rw [json, Document.toJson_of_isNull d h] at value
    cases value
  have hoptional : optional (Advanced.decode src) d = .ok (some (.tree t)) := by
    rw [Decode.optional, hnull]
    exact map_ok some hadvanced
  refine Record.decode_insert rfl (fun q => map_ok _ hoptional) ?_ unnamed others
  intro other hother hname e a b h
  simp only [Query.record, List.mem_cons, List.not_mem_nil, or_false] at hother
  rcases hother with rfl | rfl | rfl | rfl | rfl | rfl | rfl
  all_goals obtain ⟨v, hv, rfl⟩ := ok_of_map h
  · exact map_ok _ hv
  · exact map_ok _ hv
  · exact map_ok _ hv
  · exact map_ok _ hv
  · exact map_ok _ hv
  · exact absurd rfl hname
  · exact map_ok _ hv

end Section

namespace Compile

open BucketQuery.Filter (Condition HalfFilled IsFilled Member Node ReadsAs SaysOr Tree joinsOf members
  namedParts)
open Sql (Expr)
open Section (Query)

/-! ### Rows in reach -/

/-- The rows of a list with their places. `inner` lists what is in a list within it. -/
def placed (inner : List Nat → Json → List (Path × Json)) (around : List Nat) :
    (conditions groups : Nat) → List Member → List (Path × Json)
  | _, _, [] => []
  | i, j, .row r :: rest => (⟨around, .condition i⟩, r) :: placed inner around (i + 1) j rest
  | i, j, .list v :: rest => inner (around ++ [j]) v ++ placed inner around i (j + 1) rest

/-- The rows of a list, and of the lists in it down to a depth, in the order of the tree. -/
def rowsWithin : (depth : Nat) → (around : List Nat) → Json → List (Path × Json)
  | 0, around, v => placed (fun _ _ => []) around 0 0 (members v)
  | depth + 1, around, v => placed (rowsWithin depth) around 0 0 (members v)

/-- A condition that is not too deep, with its place. -/
def conditionAt? (deepest : Nat) : Path × Node → Option (Path × Condition)
  | (p, .condition c) => if p.groups.length ≤ deepest then some (p, c) else none
  | (_, .group ..) => none

theorem conditionAt_deep {deepest : Nat} {x : Path × Node} (h : deepest < x.1.groups.length) :
    conditionAt? deepest x = none := by
  obtain ⟨p, n⟩ := x
  cases n with
  | condition c => exact if_neg (Nat.not_le.mpr h)
  | group joins children => rfl

/-- Members are read one by one, and what is in a list as `inner` says. -/
theorem conditions_placed {deepest : Nat} {around : List Nat} (hreach : around.length ≤ deepest)
    {inner : List Nat → Json → List (Path × Json)}
    (hinner : ∀ j v ns, List.Forall₂ ReadsAs (members v) ns →
      (places (around ++ [j]) 0 0 ns).filterMap (conditionAt? deepest) =
        (inner (around ++ [j]) v).map (Prod.map id Condition.ofRow))
    {ms : List Member} {ns : List Node} (h : List.Forall₂ ReadsAs ms ns) (i j : Nat) :
    (places around i j ns).filterMap (conditionAt? deepest) =
      (placed inner around i j ms).map (Prod.map id Condition.ofRow) := by
  induction h generalizing i j with
  | nil =>
    rw [places, placed]
    rfl
  | cons hm _ ih =>
    cases hm with
    | row r =>
      have hat : conditionAt? deepest (⟨around, .condition i⟩, .condition (.ofRow r)) =
          some (⟨around, .condition i⟩, .ofRow r) := if_pos hreach
      rw [places, placed, List.filterMap_cons_some hat, ih, List.map_cons]
      rfl
    | list children =>
      rw [places, placed, List.filterMap_cons_none rfl, List.filterMap_append, ih,
        hinner j _ _ children, List.map_append]

/-- The conditions of a tree that are in reach are what was read of the rows in reach. -/
theorem conditions_eq_rows {deepest : Nat} (depth : Nat) {around : List Nat}
    (hdepth : around.length + depth = deepest) {v : Json} {ns : List Node}
    (h : List.Forall₂ ReadsAs (members v) ns) :
    (places around 0 0 ns).filterMap (conditionAt? deepest) =
      (rowsWithin depth around v).map (Prod.map id Condition.ofRow) := by
  induction depth generalizing around v ns with
  | zero =>
    have hdeep (j : Nat) : deepest < (around ++ [j]).length := length_inside around j ▸ (by omega)
    refine conditions_placed (Nat.le_of_eq hdepth) ?_ h 0 0
    exact fun j v ns _ => filterMap_deep (fun x hx => conditionAt_deep hx) (hdeep j)
  | succ depth ih =>
    have hinside (j : Nat) : (around ++ [j]).length + depth = deepest :=
      length_inside around j ▸ (by omega)
    exact conditions_placed (by omega) (fun j v ns h => ih (hinside j) h) h 0 0

/-! ### Tests and warnings -/

def test? (x : Path × Condition) : Option Expr := (condition x.2).toOption

def drop? (x : Path × Condition) : Option (Path × Drop) :=
  match condition x.2 with
  | .ok _ => none
  | .error why => some (x.1, why)

def Part.test? : Part → Option Expr
  | .leaf e => some e
  | .unit => none

/-- The tests in a filter, from left to right. -/
def testsOf (filter : Option Expr) : List Expr :=
  (filter.elim [] (Expr.parts 0)).filterMap fun part => part.2.test?

/-- The condition that a warning is about, and why it was dropped. -/
def droppedRow? : Warning → Option (Path × Drop)
  | .dropped ⟨around, .condition i⟩ why => some (⟨around, .condition i⟩, why)
  | .dropped ⟨_, .group _⟩ _ | .unknownGranularity _ | .invalidIdentifier .. | .invertedDates .. => none

theorem part_test (deepest : Nat) (x : Path × Node) :
    ((part? deepest x).bind fun part => part.2.test?) = (conditionAt? deepest x).bind test? := by
  obtain ⟨p, n⟩ := x
  cases n with
  | group joins children =>
    rw [part?, fate, conditionAt?]
    split_ifs <;> rfl
  | condition c =>
    rw [part?, fate, conditionAt?]
    by_cases hdeep : deepest < p.groups.length
    · rw [if_pos hdeep, if_neg (Nat.not_le.mpr hdeep)]
      rfl
    · rw [if_neg hdeep, if_pos (Nat.not_lt.mp hdeep), Option.bind_some, test?]
      cases condition c <;> rfl

/-- The slot that a path ends in is one for nodes of the kind that it leads to. -/
theorem slot_of_nodeAt {groups : List Nat} {slot : Slot} {ns : List Node} {n : Node}
    (h : nodeAt? groups slot ns = some n) :
    (∃ i c, slot = .condition i ∧ n = .condition c) ∨
      ∃ j joins children, slot = .group j ∧ n = .group joins children := by
  induction groups generalizing ns with
  | nil =>
    cases slot with
    | condition i =>
      obtain ⟨c, -, rfl⟩ := Option.map_eq_some_iff.mp h
      exact .inl ⟨i, c, rfl, rfl⟩
    | group j =>
      obtain ⟨g, -, rfl⟩ := Option.map_eq_some_iff.mp h
      exact .inr ⟨j, g.1, g.2, rfl, rfl⟩
  | cons k below ih =>
    obtain ⟨g, -, h⟩ := Option.bind_eq_some_iff.mp h
    exact ih h

theorem warning_drop {deepest : Nat} {t : Tree} {x : Path × Node} (hx : x ∈ t.closings) :
    (warning? deepest x).bind droppedRow? = (conditionAt? deepest x).bind drop? := by
  obtain ⟨⟨around, slot⟩, n⟩ := x
  have hat : nodeAt? around slot t.children = some n := (t.mem_places_iff _ n).mp (mem_closings.mp hx)
  rcases slot_of_nodeAt hat with ⟨i, c, rfl, rfl⟩ | ⟨j, joins, children, rfl, rfl⟩
  · rw [warning?, fate, conditionAt?]
    by_cases hdeep : deepest < around.length
    · rw [if_pos hdeep, if_neg (Nat.not_le.mpr hdeep)]
      rfl
    · rw [if_neg hdeep, if_pos (Nat.not_lt.mp hdeep), Option.bind_some, drop?]
      cases condition c <;> rfl
  · rw [warning?, fate, conditionAt?]
    split_ifs <;> rfl

/-- Conditions end in the order in which they begin. -/
theorem conditions_closings (deepest : Nat) (around : List Nat) (i j : Nat) (ns : List Node) :
    (closings around i j ns).filterMap (conditionAt? deepest) =
      (places around i j ns).filterMap (conditionAt? deepest) := by
  fun_induction places around i j ns with
  | case1 => rw [closings]
  | case2 around i j c rest ih =>
    rw [closings, List.filterMap_cons, List.filterMap_cons, ih]
  | case3 around i j joins children rest ihinner ih =>
    rw [closings, List.filterMap_append, List.filterMap_cons_none rfl, List.filterMap_cons_none rfl,
      List.filterMap_append, ihinner, ih]

section Outcome
variable {deepest : Nat} {v : Json} {t : Tree} (h : List.Forall₂ ReadsAs (members v) t.children)
include h

theorem conditions_tree : t.places.filterMap (conditionAt? deepest) =
    (rowsWithin deepest [] v).map (Prod.map id Condition.ofRow) :=
  have hdepth : ([] : List Nat).length + deepest = deepest := Nat.zero_add deepest
  conditions_eq_rows deepest hdepth h

/-- The filter tests the rows in reach that compile, in their order. -/
theorem testsOf_tree : testsOf (tree deepest t).1 =
    (rowsWithin deepest [] v).filterMap fun r => (condition (.ofRow r.2)).toOption := by
  have hparts : (tree deepest t).1.elim [] (Expr.parts 0) = t.places.filterMap (part? deepest) :=
    (parts_expr _ 0).trans (tree_account deepest t).1
  rw [testsOf, hparts, List.filterMap_filterMap, funext (part_test deepest), ← List.filterMap_filterMap,
    conditions_tree h, List.filterMap_map]
  rfl

/-- The others each have a warning, in their order. -/
theorem droppedRows_tree : (tree deepest t).2.filterMap droppedRow? =
    (rowsWithin deepest [] v).filterMap fun r => drop? (r.1, .ofRow r.2) := by
  have hclosings : t.closings.filterMap (conditionAt? deepest) =
      t.places.filterMap (conditionAt? deepest) := conditions_closings deepest [] 0 0 t.children
  have hdrops : ∀ x ∈ t.closings,
      (warning? deepest x).bind droppedRow? = (conditionAt? deepest x).bind drop? :=
    fun x hx => warning_drop hx
  rw [tree_warnings, List.filterMap_filterMap, List.filterMap_congr hdrops, ← List.filterMap_filterMap,
    hclosings, conditions_tree h, List.filterMap_map]
  rfl

end Outcome

/-- A request's other warnings are about no row. -/
theorem droppedRows_plan {c : Compiler} {q : Query} {p : Plan} (h : c.plan q = .ok p) :
    p.warnings.filterMap droppedRow? =
      (filterWarnings c.settings.maxGroupDepth q.advanced).filterMap droppedRow? := by
  have hinterval : (intervalWarnings q).filterMap droppedRow? = [] := by
    rw [intervalWarnings]
    cases (granularityOf q.timeInterval).2 <;> rfl
  have hrequest : (requestWarnings q).filterMap droppedRow? = [] := by
    rw [List.filterMap_eq_nil_iff]
    intro w hw
    rcases requestWarnings_kind q w hw with ⟨role, name, rfl⟩ | ⟨start, finish, rfl⟩
    · rfl
    · rfl
  obtain ⟨-, -, -, hwarnings⟩ := plan_parts c q h
  rw [hwarnings, List.filterMap_append, List.filterMap_append, hinterval, hrequest, List.append_nil,
    List.nil_append]

/-- **Half-filled rows are never fatal, and what is dropped of them is said.** A request is read whatever
the rows of its filter hold, and compiles where unknown intervals pass. The tests of its filter are those
rows in reach that are filled, and its warnings about conditions are the other ones, both in the order of
the rows and each once. A row is filled if its field is an identifier, its operator is the spelling of one,
and its value has the form that the operator needs. It is negated by true alone, and a row or a group is
joined by OR only where the word stands. -/
theorem half_filled_rows {c : Compiler} {src : Source} {before after : List (String × Document)}
    {stop : Option Break} {q : Query} {d : Document} {fields : List (String × Json)}
    (lenient : c.settings.strictGranularity = false)
    (unnamed : "advancedFilters" ∉ (before ++ after).map Prod.fst)
    (others : Query.decode src (.mapping (before ++ after) stop) = .ok q)
    (value : Decode.json src d = .ok (.object fields)) (rows : HalfFilled (.object fields)) :
    (∃ t : Tree,
      Query.decode src (.mapping (before ++ ("advancedFilters", d) :: after) stop) = .ok (q.withTree t) ∧
      List.Forall₂ ReadsAs (members (.object fields)) t.children ∧
      ∀ mode dialect, ∃ out filter,
        c.compileWith mode dialect (q.withTree t) = .ok out ∧
        out.sql = ((select (route out.granularity c.tables) (q.withTree t) filter).render dialect mode).sql ∧
        out.filterSql = filter.map (fun e => (e.render dialect .inline).sql) ∧
        testsOf filter = (rowsWithin c.settings.maxGroupDepth [] (.object fields)).filterMap
          (fun r => (condition (.ofRow r.2)).toOption) ∧
        out.warnings.filterMap droppedRow? =
          (rowsWithin c.settings.maxGroupDepth [] (.object fields)).filterMap
            fun r => drop? (r.1, .ofRow r.2)) ∧
    (∀ row, (∃ e, condition (.ofRow row) = .ok e) ↔ IsFilled row) ∧
    (∀ row, (Condition.ofRow row).negated = true ↔ row.field? "isNot" = some (.bool true)) ∧
    (∀ row, (Condition.ofRow row).joins = .or ↔ SaysOr (row.field? "logicalOperator")) ∧
    ∀ v, joinsOf v = .or ↔ SaysOr ((namedParts v).lookup "logicalOperator") := by
  refine ⟨?_, fun row => (condition_ok_iff _).trans (Condition.ofRow_expressible_iff row),
    Condition.ofRow_negated_iff, fun row => Filter.connective_or_iff _, fun v => Filter.connective_or_iff _⟩
  obtain ⟨ns, hgroup, hreads⟩ := rows.decode (Decode.isFinite_of_json value)
  have htree : Tree.decode .value (Document.ofJson (.object fields)) = .ok ⟨ns⟩ := by
    rw [Filter.Tree.decode_eq_map, hgroup]
    rfl
  refine ⟨⟨ns⟩, Section.Query.decode_tree unnamed others value htree, hreads, fun mode dialect => ?_⟩
  have hadvanced : (q.withTree ⟨ns⟩).advanced = some (.tree ⟨ns⟩) := rfl
  obtain ⟨out, hout⟩ : ∃ out, c.compileWith mode dialect (q.withTree ⟨ns⟩) = .ok out := by
    cases h : c.compileWith mode dialect (q.withTree ⟨ns⟩) with
    | ok out => exact ⟨out, rfl⟩
    | error e =>
      have hstrict := strict_of_refused (Section.Query.noText_of_tree hadvanced)
        ((compileWith_eq_error_iff ..).mp h)
      rw [lenient] at hstrict
      cases hstrict
  obtain ⟨p, hp, rfl⟩ := compiled_of_ok c _ hout
  obtain ⟨-, hfilter, hstatement, -⟩ := plan_parts c _ hp
  have hpfilter : p.filter = (tree c.settings.maxGroupDepth ⟨ns⟩).1 :=
    congrArg Prod.fst (Except.ok.inj (hfilter.symm.trans (advanced_tree hadvanced)))
  refine ⟨_, p.filter, hout, ?_, rfl, ?_, ?_⟩
  · exact congrArg (fun s => (s.render dialect mode).sql) hstatement
  · rw [hpfilter, testsOf_tree hreads]
  · exact (droppedRows_plan hp).trans (droppedRows_tree hreads)

/-- An empty row, and one that is filled. -/
def halfFilledGroup : Json := .object [
  ("conditions", .array [
    .object [],
    .object [("field", .string "answered"), ("isNot", .bool true), ("operator", .string "=true")]]),
  ("logicalOperator", .string " oR ")]

/-- A row that is filled, whose switch is no boolean; one whose operator is no string; one without its
second bound; and a group. -/
def halfFilledCalls : List (String × Json) := [
  ("conditions", .array [
    .object [("field", .string " agent "), ("isNot", .string "yes"), ("note", .int 1),
      ("operator", .string "like%"), ("value", .string "an")],
    .object [("field", .string "queue"), ("operator", .int 7), ("value", .string "sales")],
    .object [("field", .string "wait"), ("operator", .string "between"), ("value", .array [.int 1, .null])]]),
  ("groups", .array [halfFilledGroup])]

theorem halfFilledCalls_halfFilled : HalfFilled (.object halfFilledCalls) := by
  have hgroup : HalfFilled halfFilledGroup := by
    have hnodes : Filter.itemsUnder "children" (namedParts halfFilledGroup) = [] := rfl
    refine .list (.inl ⟨_, rfl⟩) (by decide) ?_ ?_ ?_ ?_ ?_
    · simp [namedParts, halfFilledGroup, Filter.isListName, Filter.isShapeName]
    · simp [namedParts, halfFilledGroup]
    · rw [hnodes]
      exact fun n hn => absurd hn List.not_mem_nil
    · simp only [members, hnodes]
      simp [namedParts, halfFilledGroup, Filter.itemsUnder, Json.valuesOf, Json.items, Filter.IsRow]
    · simp [members, namedParts, halfFilledGroup, Filter.itemsUnder, Json.valuesOf]
  have hnodes : Filter.itemsUnder "children" (namedParts (.object halfFilledCalls)) = [] := rfl
  refine .list (.inl ⟨_, rfl⟩) (by decide) ?_ ?_ ?_ ?_ ?_
  · simp [namedParts, halfFilledCalls, Filter.isListName, Filter.isShapeName]
  · simp [namedParts, halfFilledCalls]
  · rw [hnodes]
    exact fun n hn => absurd hn List.not_mem_nil
  · simp only [members, hnodes]
    simp [namedParts, halfFilledCalls, Filter.itemsUnder, Json.valuesOf, Json.items, Filter.IsRow]
  · simp only [members, hnodes]
    simp [namedParts, halfFilledCalls, Filter.itemsUnder, Json.valuesOf, Json.items, hgroup]

/-- Two of these rows are in the filter, and each of the other three has its warning. -/
theorem half_filled_calls :
    let q : Query := {timeInterval := some "hourly", groupBy := some "queue"}
    ∃ t : Tree,
      Query.decode .value (.mapping [("groupBy", .string "queue"),
        ("advancedFilters", Document.ofJson (.object halfFilledCalls)), ("timeInterval", .string "hourly")]
        none) = .ok (q.withTree t) ∧
      ∀ mode dialect, ∃ out filter,
        Compiler.default.compileWith mode dialect (q.withTree t) = .ok out ∧
        (testsOf filter).map (fun e => (e.render .mysql .inline).sql) =
          ["agent LIKE 'an%'", "answered = 0"] ∧
        out.warnings.filterMap droppedRow? = [(⟨[], .condition 1⟩, .incomplete),
          (⟨[], .condition 2⟩, .malformedRange "wait" "BETWEEN"), (⟨[0], .condition 0⟩, .incomplete)] := by
  intro q
  have hunnamed : "advancedFilters" ∉
      ([("groupBy", Document.string "queue")] ++
        [("timeInterval", Document.string "hourly")]).map Prod.fst := by
    decide
  have hothers : Query.decode .value (.mapping
      ([("groupBy", .string "queue")] ++ [("timeInterval", .string "hourly")]) none) = .ok q := rfl
  obtain ⟨⟨t, hread, -, hcompile⟩, -⟩ := half_filled_rows (c := .default) rfl hunnamed hothers
    (Decode.json_ofJson rfl) halfFilledCalls_halfFilled
  refine ⟨t, hread, fun mode dialect => ?_⟩
  obtain ⟨out, filter, hout, -, -, htests, hdropped⟩ := hcompile mode dialect
  refine ⟨out, filter, hout, ?_, hdropped.trans ?_⟩
  · rw [htests]
    decide +kernel
  · decide +kernel

end Compile

end BucketQuery
