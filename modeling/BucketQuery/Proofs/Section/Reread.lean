import BucketQuery.Proofs.Filter.Reread
import BucketQuery.Proofs.Section.RoundTrip

/-! Queries read back from their text.

A query that was read from a text is written with its groups in the one native shape, which takes more
containers than the shape it may have been read in. What was written is read back exactly if no more than 127
containers enclose one another in it (`Query.rewritten_read`). -/
namespace BucketQuery.Section

open Decode

/-! ### Filters -/

/-- A filter with the values of its conditions such as texts give. -/
def Advanced.Held : Advanced → Prop
  | .text _ => True
  | .tree t => t.Held

/-- The filter with the values of its conditions read back. -/
def Advanced.reread : Advanced → Advanced
  | .text condition => .text condition
  | .tree t => .tree t.reread

namespace Advanced

theorem held_of_decode {src : Source} {d : Document} (hd : d.Held) {a : Advanced} (h : decode src d = .ok a) :
    a.Held := by
  obtain ⟨v, hv, h⟩ := ok_of_bind h
  have hheld := Document.toJson_held d hd (toJson_of_json hv)
  rw [ofJson.eq_def] at h
  split at h
  · cases h
    trivial
  · split at h
    · rename_i ht
      cases h
      exact Filter.Tree.held_of_decode (Document.ofJson_held _ hheld) ht
    · cases h
    · cases h
  · cases h

theorem streamed_held {a : Advanced} (h : a.Held) : a.streamed.Held := by
  cases a with
  | text condition => exact trivial
  | tree t => exact Filter.Tree.streamed_held h

theorem streamed_reread (a : Advanced) : a.streamed.reread = a.reread.toJson := by
  cases a with
  | text condition => rfl
  | tree t => exact Filter.Tree.streamed_reread t

theorem reread_wellFormed {a : Advanced} (h : a.WellFormed) : a.reread.WellFormed := by
  cases a with
  | text condition => exact trivial
  | tree t => exact Filter.Tree.reread_wellFormed h

theorem written_isNull (a : Advanced) : (Json.written 1 a.streamed).isNull = false := by
  cases a with
  | text condition => rfl
  | tree t =>
    rw [streamed, Filter.Tree.streamed, Json.written, if_pos (by decide)]
    rfl

/-- What is read where a filter was written. -/
theorem decode_written {a : Advanced} (h : a.WellFormed) {depth : Nat} (hdepth : depth ≤ Json.Reading.deepest) :
    decode .json (Json.written depth a.streamed) =
      if depth + a.streamed.depth ≤ Json.Reading.deepest then .ok a.reread else .error (.fault .malformed) := by
  rw [decode, json, Json.toJson_written hdepth]
  split_ifs
  · rw [streamed_reread]
    exact ofJson_toJson (reread_wellFormed h)
  · rfl

end Advanced

/-! ### The other parts of a query -/

section Parts
variable {α : Type} (f : α → String) (x : Option α) (ss : List String)

theorem optionalText_held : (Json.orNull (x.map fun a => .string (f a))).Held := by
  cases x <;> exact trivial

theorem strings_held : (Json.strings ss).Held := by
  have hitems : Json.ItemsHeld (ss.map .string) := by
    induction ss with
    | nil => exact trivial
    | cons s rest ih => exact ⟨trivial, ih⟩
  rw [Json.strings, Json.Held]
  exact hitems

theorem optionalText_depth : (Json.orNull (x.map fun a => .string (f a))).depth = 0 := by
  cases x <;> rfl

theorem strings_depth : (Json.strings ss).depth = 1 := by
  have hitems : Json.itemsDepth (ss.map .string) = 0 := by
    induction ss with
    | nil => rfl
    | cons s rest ih =>
      rw [List.map_cons, Json.itemsDepth, ih]
      rfl
  rw [Json.strings, Json.depth, hitems]

theorem written_optionalText (depth : Nat) :
    Json.written depth (Json.orNull (x.map fun a => .string (f a))) =
      Document.ofJson (Json.orNull (x.map fun a => .string (f a))) := by
  cases x <;> rfl

theorem written_strings {depth : Nat} (h : depth < Json.Reading.deepest) :
    Json.written depth (Json.strings ss) = Document.ofJson (Json.strings ss) := by
  have hitems : Json.writtenItems (depth + 1) (ss.map .string) = Document.ofItems (ss.map .string) := by
    induction ss with
    | nil => rfl
    | cons s rest ih =>
      rw [List.map_cons, Json.writtenItems, Document.ofItems, ih]
      rfl
  rw [Json.strings, Json.written, if_pos h, hitems, Document.ofJson]

theorem decode_dimensions (d : Dimensions) :
    Dimensions.decode .json (Json.written 1 d.streamed) = .ok d := by
  have hqueues := written_strings d.queues (by decide : 2 < Json.Reading.deepest)
  have hchannels := written_strings d.channels (by decide : 2 < Json.Reading.deepest)
  have hread : Dimensions.record.readFields [] {} [("queues", Document.ofJson (Json.strings d.queues)),
      ("channels", Document.ofJson (Json.strings d.channels))] = .ok (["channels", "queues"], d) := by
    refine (Record.readFields_cons rfl rfl (map_ok _ (strings_ofJson _))).trans ?_
    exact Record.readFields_cons rfl rfl (map_ok _ (strings_ofJson _))
  rw [Dimensions.streamed, Json.written, if_pos (by decide)]
  simp only [Json.writtenFields, hqueues, hchannels]
  exact Record.decode_mapping hread rfl

end Parts

/-! ### Queries -/

namespace Query

/-- The filter of the query holds only such values as texts give. -/
def Held (q : Query) : Prop := ∀ a ∈ q.advanced, a.Held

theorem held_of_decode {src : Source} {d : Document} (hd : d.Held) {q : Query} (h : decode src d = .ok q) :
    q.Held := by
  have hempty : ({} : Query).Held := fun a ha => nomatch ha
  refine Record.decode_keeps (P := Query.Held) ?_ hempty h
  intro field hfield e he q q' hq hread
  simp only [record, List.mem_cons, List.not_mem_nil, or_false] at hfield
  rcases hfield with rfl | rfl | rfl | rfl | rfl | rfl | rfl
  all_goals obtain ⟨v, hv, rfl⟩ := ok_of_map hread
  · exact hq
  · exact hq
  · exact hq
  · exact hq
  · exact hq
  · exact optional_all (fun _ => Advanced.held_of_decode (Document.inner_held hd e he)) hv
  · exact hq

/-- The query that is read where one was written. -/
def reread (q : Query) : Query := {q with advanced := q.advanced.map Advanced.reread}.wholeSeconds

/-- The filter of the query as it stands in a text. -/
def filter (q : Query) : Json := Json.orNull (q.advanced.map Advanced.streamed)

theorem streamed_held {q : Query} (h : q.Held) : q.streamed.Held := by
  have hfilter : q.filter.Held := by
    rw [filter]
    cases ha : q.advanced with
    | none => exact trivial
    | some a => exact Advanced.streamed_held (h a ha)
  simp only [streamed, Dimensions.streamed, Json.Held, Json.FieldsHeld, and_true]
  exact ⟨optionalText_held id _, optionalText_held _ _, optionalText_held _ _,
    ⟨strings_held _, strings_held _⟩, optionalText_held id _, hfilter, strings_held _⟩

/-- The containers around the filter, and the two levels of the other parts. -/
theorem streamed_depth (q : Query) : q.streamed.depth = max q.filter.depth 2 + 1 := by
  have htext (x : Option String) : (Json.orNull (x.map .string)).depth = 0 := optionalText_depth id x
  simp only [streamed, filter, Dimensions.streamed, Json.depth, Json.fieldsDepth, strings_depth,
    optionalText_depth, htext]
  omega

/-- The fields of a query's text. -/
def documents (q : Query) : List (String × Document) := [
  ("timeInterval", Document.ofJson (Json.orNull (q.timeInterval.map .string))),
  ("startDate", Document.ofJson (Json.orNull (q.startDate.map fun t => .string t.text))),
  ("endDate", Document.ofJson (Json.orNull (q.endDate.map fun t => .string t.text))),
  ("filters", Json.written 1 q.dimensions.streamed),
  ("groupBy", Document.ofJson (Json.orNull (q.groupBy.map .string))),
  ("advancedFilters", Json.written 1 q.filter),
  ("columns", Document.ofJson (Json.strings q.columns))]

theorem written_streamed (q : Query) : Json.written 0 q.streamed = .mapping q.documents none := by
  have hstrings := written_strings q.columns (by decide : 1 < Json.Reading.deepest)
  have htext (x : Option String) :
      Json.written 1 (Json.orNull (x.map .string)) = Document.ofJson (Json.orNull (x.map .string)) :=
    written_optionalText id x 1
  have hdate := written_optionalText Calendar.Instant.text
  rw [streamed, Json.written, if_pos (by decide), documents]
  simp only [Json.writtenFields, Nat.zero_add, hstrings, hdate, htext]
  rfl

/-- What is read where the filter of a query was written, or null in place of none. -/
theorem optional_written {q : Query} (h : q.WellFormed) :
    optional (Advanced.decode .json) (Json.written 1 q.filter) =
      if q.streamed.depth ≤ Json.Reading.deepest then .ok (q.advanced.map Advanced.reread)
      else .error (.fault .malformed) := by
  rw [streamed_depth, filter]
  cases ha : q.advanced with
  | none => rfl
  | some a =>
    have hnull := Advanced.written_isNull a
    have hfilter := Advanced.decode_written (h a ha) (by decide : 1 ≤ Json.Reading.deepest)
    rw [Option.map_some, Option.map_some, Json.orNull, Option.getD_some, Decode.optional, hnull, hfilter]
    by_cases hdepth : 1 + a.streamed.depth ≤ Json.Reading.deepest
    · have hmax : max a.streamed.depth 2 + 1 ≤ Json.Reading.deepest := by
        have hroom : 3 ≤ Json.Reading.deepest := by decide
        omega
      rw [if_pos hdepth, if_pos hmax]
      rfl
    · have hmax : ¬ max a.streamed.depth 2 + 1 ≤ Json.Reading.deepest := by omega
      rw [if_neg hdepth, if_neg hmax]
      rfl

/-- All fields are read back, the filter if it is not too deep. -/
theorem readFields_documents {q : Query} (h : q.WellFormed) :
    (record .json).readFields [] {} q.documents =
      if q.streamed.depth ≤ Json.Reading.deepest then
        .ok (["columns", "advancedFilters", "groupBy", "filters", "endDate", "startDate", "timeInterval"], q.reread)
      else .error (.fault .malformed) := by
  have hfilter := optional_written h
  refine (Record.readFields_cons rfl rfl (map_ok _ (optional_string _))).trans ?_
  refine (Record.readFields_cons rfl rfl (map_ok _ (instant_toJson _))).trans ?_
  refine (Record.readFields_cons rfl rfl (map_ok _ (instant_toJson _))).trans ?_
  refine (Record.readFields_cons rfl rfl (map_ok _ (decode_dimensions _))).trans ?_
  refine (Record.readFields_cons rfl rfl (map_ok _ (optional_string _))).trans ?_
  split_ifs at hfilter ⊢
  · refine (Record.readFields_cons rfl rfl (map_ok _ hfilter)).trans ?_
    exact Record.readFields_cons rfl rfl (map_ok _ (strings_ofJson _))
  · refine Record.readFields_cons_error rfl rfl ?_
    show (fun advanced => _) <$> optional (Advanced.decode .json) _ = _
    rw [hfilter]
    rfl

/-- What is read of a query's text. -/
theorem ofText_text {q : Query} (hheld : q.Held) (hwf : q.WellFormed) :
    Decode.ofText decode q.text =
      if q.streamed.depth ≤ Json.Reading.deepest then .ok q.reread else .error (.fault .malformed) := by
  rw [Decode.ofText, text, Json.document_text (streamed_held hheld), written_streamed]
  dsimp only
  rw [decode, Record.decode, readFields_documents hwf]
  split_ifs
  · rfl
  · rfl

/-- What is read of a text that was read before and written. -/
theorem ofText_rewritten {source : String} {q : Query} (h : Decode.ofText decode source = .ok q) :
    Decode.ofText decode q.text =
      if q.streamed.depth ≤ Json.Reading.deepest then .ok q.reread else .error (.fault .malformed) := by
  rw [Decode.ofText] at h
  obtain ⟨a, ha, h⟩ := ok_of_bind h
  obtain rfl : a = q := by
    split at h
    · cases h
    · exact Except.ok.inj h
  exact ofText_text (held_of_decode (Json.document_held source) ha) (wellFormed_of_decode ha)

/-! ### Groups in groups

A group costs two containers in the shape with groups apart and three in the native one. -/

/-- A filter of this many groups, one in the other, the last of them empty. -/
def nestedFilter : Nat → Json
  | 0 => .object []
  | k + 1 => .object [("groups", .array [nestedFilter k])]

def nestedText (k : Nat) : String := (Json.object [("advancedFilters", nestedFilter k)]).text

def nestedChildren : Nat → List Filter.Node
  | 0 => []
  | k + 1 => [.group .and (nestedChildren k)]

def nestedQuery (k : Nat) : Query := {advanced := some (.tree ⟨nestedChildren k⟩)}

section Nested
variable (k : Nat)

theorem nestedFilter_held : (nestedFilter k).Held := by
  induction k with
  | zero => exact trivial
  | succ k ih =>
    simp only [nestedFilter, Json.Held, Json.FieldsHeld, Json.ItemsHeld, and_true]
    exact ih

theorem nestedFilter_depth : (nestedFilter k).depth = 2 * k + 1 := by
  induction k with
  | zero => rfl
  | succ k ih =>
    simp only [nestedFilter, Json.depth, Json.fieldsDepth, Json.itemsDepth, ih]
    omega

theorem nestedFilter_reread : (nestedFilter k).reread = nestedFilter k := by
  induction k with
  | zero => rfl
  | succ k ih =>
    simp only [nestedFilter, Json.reread, Json.rereadFields, Json.rereadItems, ih]
    rfl

theorem decode_nestedFilter :
    Filter.Group.decode .value (Document.ofJson (nestedFilter k)) = .ok ⟨.and, nestedChildren k⟩ := by
  induction k with
  | zero => rfl
  | succ k ih =>
    have hgroups : Filter.groups .value (Document.ofJson (.array [nestedFilter k])) =
        .ok (some [⟨.and, nestedChildren k⟩]) := by
      rw [Filter.groups_array, Document.ofItems, Document.ofItems, each, ih]
      rfl
    exact Filter.Group.decode_object_iff.mpr ⟨{groups := some (some [⟨.and, nestedChildren k⟩])},
      ⟨rfl, rfl, Filter.takePart_one hgroups, rfl⟩, rfl⟩

theorem nestedChildren_depth : Json.itemsDepth (Filter.nodesStreamed (nestedChildren k)) = 3 * k := by
  induction k with
  | zero => rfl
  | succ k ih =>
    simp only [nestedChildren, Filter.nodesStreamed, Filter.Node.streamed, Filter.Connective.toJson, Json.depth,
      Json.itemsDepth, Json.fieldsDepth, ih]
    omega

theorem nestedQuery_depth : (nestedQuery k).streamed.depth = 3 * k + 3 := by
  have hfilter : (nestedQuery k).filter.depth = 3 * k + 2 := by
    show (Filter.Tree.streamed ⟨nestedChildren k⟩).depth = _
    simp only [Filter.Tree.streamed, Json.depth, Json.fieldsDepth, nestedChildren_depth]
    omega
  rw [streamed_depth, hfilter]
  omega

variable {k}

theorem nestedFilter_object (k : Nat) : ∃ fields, nestedFilter k = .object fields := by
  cases k <;> exact ⟨_, rfl⟩

theorem ofJson_nestedFilter (k : Nat) : Advanced.ofJson (nestedFilter k) = .ok (.tree ⟨nestedChildren k⟩) := by
  have htree : Filter.Tree.decode .value (Document.ofJson (nestedFilter k)) = .ok ⟨nestedChildren k⟩ := by
    rw [Filter.Tree.decode_eq_map, decode_nestedFilter]
    rfl
  obtain ⟨fields, hfields⟩ := nestedFilter_object k
  rw [hfields] at htree ⊢
  rw [Advanced.ofJson, htree]

theorem optional_nestedFilter (h : k ≤ 62) :
    optional (Advanced.decode .json) (Json.written 1 (nestedFilter k)) = .ok (some (.tree ⟨nestedChildren k⟩)) := by
  have hnull : (Json.written 1 (nestedFilter k)).isNull = false := by
    obtain ⟨fields, hfields⟩ := nestedFilter_object k
    rw [hfields, Json.written, if_pos (by decide)]
    rfl
  have hdepth : 1 + (nestedFilter k).depth ≤ Json.Reading.deepest := by
    rw [nestedFilter_depth]
    exact (by omega : 1 + (2 * k + 1) ≤ 127)
  rw [Decode.optional, hnull, Advanced.decode, json, Json.toJson_written (by decide), if_pos hdepth,
    nestedFilter_reread]
  show some <$> Advanced.ofJson (nestedFilter k) = _
  rw [ofJson_nestedFilter]
  rfl

theorem nestedText_read (h : k ≤ 62) : Decode.ofText decode (nestedText k) = .ok (nestedQuery k) := by
  have hheld : (Json.object [("advancedFilters", nestedFilter k)]).Held := by
    simp only [Json.Held, Json.FieldsHeld, and_true]
    exact nestedFilter_held k
  have hread : decode .json (.mapping [("advancedFilters", Json.written 1 (nestedFilter k))] none) =
      .ok (nestedQuery k) :=
    Record.decode_mapping (Record.readFields_cons rfl rfl (map_ok _ (optional_nestedFilter h))) rfl
  rw [Decode.ofText, nestedText, Json.document_text hheld, Json.written, if_pos (by decide)]
  simp only [Json.writtenFields]
  rw [hread]
  rfl

end Nested

/-- **What was read of a text and written is read again if no more than 127 containers enclose one another in
it, and only then.** -/
theorem rewritten_read {source : String} {q : Query} (h : Decode.ofText decode source = .ok q) :
    ((∃ q', Decode.ofText decode q.text = .ok q') ↔ q.streamed.depth ≤ Json.Reading.deepest) ∧
      ∀ q', Decode.ofText decode q.text = .ok q' → q' = q.reread := by
  rw [ofText_rewritten h]
  split_ifs with hdepth
  · refine ⟨⟨fun _ => hdepth, fun _ => ⟨_, rfl⟩⟩, ?_⟩
    rintro _ ⟨⟩
    rfl
  · refine ⟨⟨?_, fun hle => absurd hle hdepth⟩, ?_⟩
    · rintro ⟨_, ⟨⟩⟩
    · rintro _ ⟨⟩

/-- Forty-one groups are as many as are read back. -/
theorem nested_rewritten_read :
    Decode.ofText decode (nestedText 41) = .ok (nestedQuery 41) ∧
      ∃ q', Decode.ofText decode (nestedQuery 41).text = .ok q' := by
  have hread : Decode.ofText decode (nestedText 41) = .ok (nestedQuery 41) := nestedText_read (by decide)
  have hdepth : (nestedQuery 41).streamed.depth ≤ Json.Reading.deepest := by
    rw [nestedQuery_depth]
    decide
  exact ⟨hread, (rewritten_read hread).1.mpr hdepth⟩

/-- One more is read, and written, and not read again. -/
theorem nested_unread :
    Decode.ofText decode (nestedText 42) = .ok (nestedQuery 42) ∧
      Decode.ofText decode (nestedQuery 42).text = .error (.fault .malformed) := by
  have hread : Decode.ofText decode (nestedText 42) = .ok (nestedQuery 42) := nestedText_read (by decide)
  have hdepth : ¬ (nestedQuery 42).streamed.depth ≤ Json.Reading.deepest := by
    rw [nestedQuery_depth]
    decide
  rw [ofText_rewritten hread, if_neg hdepth]
  exact ⟨hread, rfl⟩

end Query

end BucketQuery.Section
