import BucketQuery.Decode.Text
import BucketQuery.Proofs.Calendar.Reading
import BucketQuery.Proofs.Filter.RoundTrip
import BucketQuery.Section.Decode
import BucketQuery.Section.Encode

/-! Queries read back.

A query that is written as a JSON value and read again is the same query, save that its dates have lost
the part of a second, and nothing is lost a second time (`Query.round_trip`). What is asked of the query
is that its filter is well formed, which it is where the query was itself read
(`Query.wellFormed_of_decode`). -/
namespace BucketQuery.Section

open Calendar (Instant)
open Decode

/-- A filter whose tree, if it is one, can be written and read. -/
def Advanced.WellFormed : Advanced → Prop
  | .text _ => True
  | .tree t => t.WellFormed

/-- All operators are such as reading gives, and all values of conditions such as JSON has. -/
def Query.WellFormed (q : Query) : Prop := ∀ a ∈ q.advanced, a.WellFormed

/-- The query without the parts of a second in its dates. -/
def Query.wholeSeconds (q : Query) : Query :=
  {q with
    startDate := q.startDate.map Instant.wholeSecond
    endDate := q.endDate.map Instant.wholeSecond}

/-! ### The parts of a query -/

theorem Dimensions.decode_toJson (d : Dimensions) :
    decode .value (Document.ofJson d.toJson) = .ok d := by
  have hread : record.readFields [] {} [("channels", Document.ofJson (Json.strings d.channels)),
      ("queues", Document.ofJson (Json.strings d.queues))] = .ok (["queues", "channels"], d) := by
    refine (Record.readFields_cons rfl rfl (map_ok _ (strings_ofJson _))).trans ?_
    exact Record.readFields_cons rfl rfl (map_ok _ (strings_ofJson _))
  exact Record.decode_mapping hread rfl

theorem instant_text (t : Instant) : instant (.string t.text) = .ok (some t.wholeSecond) := by
  have hread : optional string (.string t.text) = .ok (some t.text) := rfl
  rw [instant, hread]
  simp only [bind, Except.bind, t.trim_text, t.text_isEmpty, t.ofText?_text]
  rfl

theorem instant_toJson (x : Option Instant) :
    instant (Document.ofJson (Json.orNull (x.map fun t => .string t.text))) =
      .ok (x.map Instant.wholeSecond) := by
  cases x with
  | none => rfl
  | some t => exact instant_text t

theorem Advanced.ofJson_toJson {a : Advanced} (h : a.WellFormed) : ofJson a.toJson = .ok a := by
  cases a with
  | text condition => rfl
  | tree t =>
    have htree := Filter.Tree.decode_toJson h
    rw [toJson]
    rw [Filter.Tree.toJson] at htree ⊢
    rw [ofJson, htree]

theorem Advanced.toJson_isFinite {a : Advanced} (h : a.WellFormed) : a.toJson.isFinite = true := by
  cases a with
  | text condition => rfl
  | tree t => exact Filter.Tree.toJson_isFinite h

theorem Advanced.decode_toJson {a : Advanced} (h : a.WellFormed) :
    decode .value (Document.ofJson a.toJson) = .ok a := by
  rw [decode, json_ofJson (toJson_isFinite h)]
  exact ofJson_toJson h

theorem Advanced.wellFormed_of_decode {src : Source} {d : Document} {a : Advanced}
    (h : decode src d = .ok a) : a.WellFormed := by
  obtain ⟨v, -, h⟩ := ok_of_bind h
  rw [ofJson.eq_def] at h
  split at h
  · cases h
    trivial
  · split at h
    · cases h
      exact Filter.Tree.wellFormed_of_decode ‹_›
    · cases h
    · cases h
  · cases h

theorem Advanced.toJson_isNull (a : Advanced) : (Document.ofJson a.toJson).isNull = false := by
  cases a <;> rfl

/-! ### Queries -/

namespace Query

/-- What is read of a query that was written. -/
theorem decode_toJson {q : Query} (h : q.WellFormed) :
    decode .value (Document.ofJson q.toJson) = .ok q.wholeSeconds := by
  have hread : (record .value).readFields [] {}
      [("advancedFilters", Document.ofJson (Json.orNull (q.advanced.map Advanced.toJson))),
        ("columns", Document.ofJson (Json.strings q.columns)),
        ("endDate", Document.ofJson (Json.orNull (q.endDate.map fun t => .string t.text))),
        ("filters", Document.ofJson q.dimensions.toJson),
        ("groupBy", Document.ofJson (Json.orNull (q.groupBy.map .string))),
        ("startDate", Document.ofJson (Json.orNull (q.startDate.map fun t => .string t.text))),
        ("timeInterval", Document.ofJson (Json.orNull (q.timeInterval.map .string)))] =
      .ok (["timeInterval", "startDate", "groupBy", "filters", "endDate", "columns", "advancedFilters"],
        q.wholeSeconds) := by
    refine (Record.readFields_cons rfl rfl (map_ok _ (optional_orNull Advanced.toJson_isNull
      fun a ha => Advanced.decode_toJson (h a ha)))).trans ?_
    refine (Record.readFields_cons rfl rfl (map_ok _ (strings_ofJson _))).trans ?_
    refine (Record.readFields_cons rfl rfl (map_ok _ (instant_toJson _))).trans ?_
    refine (Record.readFields_cons rfl rfl (map_ok _ (Dimensions.decode_toJson _))).trans ?_
    refine (Record.readFields_cons rfl rfl (map_ok _ (optional_string _))).trans ?_
    refine (Record.readFields_cons rfl rfl (map_ok _ (instant_toJson _))).trans ?_
    exact Record.readFields_cons rfl rfl (map_ok _ (optional_string _))
  exact Record.decode_mapping hread rfl

/-- A query that is read is well formed, so it can be written and read again. -/
theorem wellFormed_of_decode {src : Source} {d : Document} {q : Query} (h : decode src d = .ok q) :
    q.WellFormed := by
  have hempty : ({} : Query).WellFormed := fun a ha => nomatch ha
  refine Record.decode_keeps (P := Query.WellFormed) ?_ hempty h
  intro field hfield e _ q q' hq hread
  simp only [record, List.mem_cons, List.not_mem_nil, or_false] at hfield
  rcases hfield with rfl | rfl | rfl | rfl | rfl | rfl | rfl
  all_goals obtain ⟨v, hv, rfl⟩ := ok_of_map hread
  · exact hq
  · exact hq
  · exact hq
  · exact hq
  · exact hq
  · exact optional_all (fun _ => Advanced.wellFormed_of_decode) hv
  · exact hq

/-- The parts of a second are not written. -/
theorem wholeSeconds_toJson (q : Query) : q.wholeSeconds.toJson = q.toJson := by
  have hdates (x : Option Instant) :
      (x.map Instant.wholeSecond).map (fun t => Json.string t.text) =
        x.map fun t => Json.string t.text := by
    cases x with
    | none => rfl
    | some t => rw [Option.map_some, Option.map_some, Option.map_some, t.wholeSecond_text]
  rw [toJson, toJson, wholeSeconds, hdates, hdates]

/-- A query is read back without the parts of a second in its dates, and what is read back is written
the same. -/
theorem round_trip {q : Query} (h : q.WellFormed) :
    Decode.ofJson decode q.toJson = .ok q.wholeSeconds ∧ q.wholeSeconds.toJson = q.toJson :=
  ⟨decode_toJson h, wholeSeconds_toJson q⟩

/-- A half-filled tree, and dates beyond the years of four figures, one of them in a leap second. -/
theorem round_trip_half_filled :
    let first : Calendar.Date := ⟨-1, 6, 30, by decide⟩
    let last : Calendar.Date := ⟨262142, 12, 31, by decide⟩
    let tree : Filter.Tree := ⟨[
      .group .or [
        .condition ⟨"agent", some (Filter.Operator.ofText " like% "), .array [.null, .int 7], .or, true⟩,
        .group .and []],
      .condition ⟨"", some (.unrecognized "7"), .object [("b", .string "x"), ("a", .null)], .and, false⟩]⟩
    let q : Query := {
      startDate := some ⟨first, 86399, 1500000000, by decide⟩
      endDate := some ⟨last, 0, 1, by decide⟩
      advanced := some (.tree tree)}
    q.WellFormed ∧
      Decode.ofJson decode q.toJson = .ok {
        startDate := some ⟨first, 86399, 1000000000, by decide⟩
        endDate := some ⟨last, 0, 0, by decide⟩
        advanced := some (.tree tree)} ∧
      q.wholeSeconds.toJson = q.toJson := by
  have hlike : (Filter.Operator.ofText " like% ").Obtained := .parsed _
  have hseven : (Filter.Operator.unrecognized "7").Obtained :=
    .decoded (show Filter.Operator.decode .json (.number (.int 7)) = .ok (.unrecognized "7") from rfl)
  refine ⟨?_, round_trip ?_⟩
  all_goals
    rintro _ ⟨⟩
    simp only [Advanced.WellFormed, Filter.Tree.WellFormed, Filter.Node.AllWellFormed,
      Filter.Node.WellFormed, and_true]
    exact ⟨⟨by rintro _ ⟨⟩; exact hlike, rfl⟩, ⟨by rintro _ ⟨⟩; exact hseven, rfl⟩⟩

end Query

end BucketQuery.Section
