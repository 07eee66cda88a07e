import BucketQuery.Proofs.Json.Reading

/-! Values read back from their text.

The text of a value is read to its end, and what is read is `written`: the value itself but for its numbers,
and but for what lies below the deepest level, which is passed over unread (`document_text`). -/
namespace BucketQuery.Json

open Reading

mutual

/-- All numbers of the value are such as texts give. -/
def Held : Json → Prop
  | .number n => n.Held ∧ (Json.number n).isFinite = true
  | .array items => ItemsHeld items
  | .object fields => FieldsHeld fields
  | .null | .bool _ | .string _ => True

def ItemsHeld : List Json → Prop
  | [] => True
  | v :: rest => v.Held ∧ ItemsHeld rest

def FieldsHeld : List (String × Json) → Prop
  | [] => True
  | (_, v) :: rest => v.Held ∧ FieldsHeld rest

end

mutual

/-- What is read, `depth` containers down, where a value was written. -/
def written (depth : Nat) : Json → Document
  | .null => .null
  | .bool b => .bool b
  | .number n => .number n.reread
  | .string s => .string s
  | .array items =>
    if depth < deepest then .sequence (writtenItems (depth + 1) items) none else .broken ⟨.malformed, none⟩
  | .object fields =>
    if depth < deepest then .mapping (writtenFields (depth + 1) fields) none else .broken ⟨.malformed, none⟩

def writtenItems (depth : Nat) : List Json → List Document
  | [] => []
  | v :: rest => written depth v :: writtenItems depth rest

def writtenFields (depth : Nat) : List (String × Json) → List (String × Document)
  | [] => []
  | (n, v) :: rest => (n, written depth v) :: writtenFields depth rest

end

mutual

theorem skip_written (depth : Nat) : (v : Json) → (written depth v).skip = none
  | .null | .bool _ | .number _ | .string _ => by rw [written, Document.skip] <;> simp
  | .array items => by
    rw [written]
    split_ifs
    · rw [Document.skip, skipItems_written]
      rfl
    · rw [Document.skip]
  | .object fields => by
    rw [written]
    split_ifs
    · rw [Document.skip, skipFields_written]
      rfl
    · rw [Document.skip]

theorem skipItems_written (depth : Nat) :
    (items : List Json) → Document.skipItems (writtenItems depth items) = none
  | [] => by rw [writtenItems, Document.skipItems]
  | v :: rest => by
    rw [writtenItems, Document.skipItems, skip_written, skipItems_written]
    rfl

theorem skipFields_written (depth : Nat) :
    (fields : List (String × Json)) → Document.skipFields (writtenFields depth fields) = none
  | [] => by rw [writtenFields, Document.skipFields]
  | (n, v) :: rest => by
    rw [writtenFields, Document.skipFields, skip_written, skipFields_written]
    rfl

end

/-! ### Texts -/

theorem stringText_toList (s : String) : (stringText s).toList = '"' :: (s.toList.flatMap escape ++ ['"']) :=
  String.toList_ofList

theorem array_text (items : List Json) :
    (Json.array items).text.toList = '[' :: ((itemsText items).toList ++ [']']) := by
  have hopen : "[".toList = ['['] := by decide
  have hclose : "]".toList = [']'] := by decide
  rw [text, String.toList_append, String.toList_append, hopen, hclose]
  rfl

theorem object_text (fields : List (String × Json)) :
    (Json.object fields).text.toList = '\x7b' :: ((fieldsText fields).toList ++ ['\x7d']) := by
  have hopen : "\x7b".toList = ['\x7b'] := by decide
  have hclose : "\x7d".toList = ['\x7d'] := by decide
  rw [text, String.toList_append, String.toList_append, hopen, hclose]
  rfl

theorem itemsText_cons (v w : Json) (rest : List Json) :
    (itemsText (v :: w :: rest)).toList = v.text.toList ++ ',' :: (itemsText (w :: rest)).toList := by
  have hcomma : ",".toList = [','] := by decide
  rw [itemsText, String.toList_append, String.toList_append, hcomma, List.append_assoc]
  · rfl
  · simp

theorem fieldsText_one (n : String) (v : Json) :
    (fieldsText [(n, v)]).toList = '"' :: (n.toList.flatMap escape ++ '"' :: ':' :: v.text.toList) := by
  have hcolon : ":".toList = [':'] := by decide
  rw [fieldsText, String.toList_append, String.toList_append, hcolon, stringText_toList]
  simp only [List.cons_append, List.append_assoc, List.nil_append]

theorem fieldsText_cons (n : String) (v : Json) (f : String × Json) (rest : List (String × Json)) :
    (fieldsText ((n, v) :: f :: rest)).toList =
      '"' :: (n.toList.flatMap escape ++ '"' :: ':' :: (v.text.toList ++ ',' :: (fieldsText (f :: rest)).toList)) := by
  have hcolon : ":".toList = [':'] := by decide
  have hcomma : ",".toList = [','] := by decide
  rw [fieldsText, String.toList_append, String.toList_append, String.toList_append, String.toList_append,
    hcolon, hcomma, stringText_toList]
  · simp only [List.cons_append, List.append_assoc, List.nil_append]
  · simp

theorem number_start {c : Char} (h : c = '-' ∨ c.isDigit = true) :
    isSpace c = false ∧ c ≠ '"' ∧ c ≠ '[' ∧ c ≠ '\x7b' ∧ c ≠ 't' ∧ c ≠ 'f' ∧ c ≠ 'n' ∧ c ≠ ']' := by
  rcases h with rfl | h
  · decide
  have hother (d : Char) (hd : d.isDigit = false) : c ≠ d := by
    rintro rfl
    rw [h] at hd
    cases hd
  have hspace : isSpace c = false := by
    rw [isSpace, beq_eq_false_iff_ne.mpr (hother ' ' rfl), beq_eq_false_iff_ne.mpr (hother '\n' rfl),
      beq_eq_false_iff_ne.mpr (hother '\t' rfl), beq_eq_false_iff_ne.mpr (hother '\r' rfl)]
    rfl
  exact ⟨hspace, hother _ rfl, hother _ rfl, hother _ rfl, hother _ rfl, hother _ rfl, hother _ rfl, hother _ rfl⟩

theorem valueAt_number {c : Char} (h : c = '-' ∨ c.isDigit = true) (depth fuel : Nat) (cs : List Char) :
    valueAt depth (fuel + 1) (c :: cs) = numberAt (c :: cs) := by
  obtain ⟨hspace, hquote, hlist, hobject, ht, hf, hn, -⟩ := number_start h
  have hmark : (c == '-' || c.isDigit) = true := by
    rcases h with rfl | h
    · rfl
    · rw [h, Bool.or_true]
  rw [valueAt.eq_def]
  simp only [skipSpace_cons hspace]
  exact if_pos hmark

/-- The text of a value begins with something that is neither blank nor the end of a list. -/
theorem text_start : (v : Json) → v.Held →
    ∃ c cs, v.text.toList = c :: cs ∧ isSpace c = false ∧ c ≠ ']'
  | .null, _ => ⟨'n', ['u', 'l', 'l'], by decide, by decide, by decide⟩
  | .bool true, _ => ⟨'t', ['r', 'u', 'e'], by decide, by decide, by decide⟩
  | .bool false, _ => ⟨'f', ['a', 'l', 's', 'e'], by decide, by decide, by decide⟩
  | .number n, h => by
    rw [Held] at h
    obtain ⟨c, cs, htext, hc⟩ := Number.text_start h.1 h.2
    obtain ⟨hspace, -, -, -, -, -, -, hclose⟩ := number_start hc
    exact ⟨c, cs, by rw [text, htext], hspace, hclose⟩
  | .string s, _ => ⟨'"', _, by rw [text, stringText_toList], by decide, by decide⟩
  | .array items, _ => ⟨'[', _, array_text items, by decide, by decide⟩
  | .object fields, _ => ⟨'\x7b', _, object_text fields, by decide, by decide⟩

theorem endsNumber_comma (rest : List Char) : EndsNumber (',' :: rest) :=
  endsNumber_cons (by decide) (by decide) (by decide) (by decide) rest

theorem atDepth_written {depth : Nat} {d w : Document} {rest : List Char} (hskip : d.skip = none)
    (h : w = if depth < deepest then d else .broken ⟨.malformed, none⟩) :
    atDepth depth (d, some rest) = (w, some rest) := by
  rw [atDepth, h]
  split_ifs
  · rfl
  · rw [hskip]

/-- The value is read where its text stands. The length of the text bounds the steps. -/
def Reads (v : Json) : Prop :=
  ∀ depth fuel rest, 2 * v.text.toList.length ≤ fuel → EndsNumber rest →
    valueAt depth fuel (v.text.toList ++ rest) = (written depth v, some rest)

def ItemsRead (items : List Json) : Prop :=
  ∀ depth fuel rest, 2 * (itemsText items).toList.length + 1 ≤ fuel →
    itemsAt depth fuel ((itemsText items).toList ++ ']' :: rest) = (writtenItems depth items, none, some rest)

def FieldsRead (fields : List (String × Json)) : Prop :=
  ∀ depth fuel rest, 2 * (fieldsText fields).toList.length + 1 ≤ fuel →
    fieldsAt depth fuel ((fieldsText fields).toList ++ '\x7d' :: rest) =
      (writtenFields depth fields, none, some rest)

/-- Where a text has something to say there is a step to take. -/
theorem reads_of_cons {v : Json} {c : Char} {cs : List Char} (htext : v.text.toList = c :: cs)
    (h : ∀ depth fuel rest, 2 * cs.length + 1 ≤ fuel → EndsNumber rest →
      valueAt depth (fuel + 1) (c :: (cs ++ rest)) = (written depth v, some rest)) : v.Reads := by
  intro depth fuel rest hfuel hrest
  rw [htext, List.length_cons] at hfuel
  obtain ⟨fuel, rfl⟩ : ∃ k, fuel = k + 1 := ⟨fuel - 1, by omega⟩
  rw [htext]
  exact h depth fuel rest (by omega) hrest

theorem wordAt_append (word : List Char) (meaning : Document) (rest : List Char) :
    wordAt word meaning (word ++ rest) = (meaning, some rest) := by
  induction word with
  | nil => rw [List.nil_append, wordAt]
  | cons w ws ih => rw [List.cons_append, wordAt, if_pos rfl, ih]

theorem null_reads : Json.null.Reads := by
  refine reads_of_cons (by decide : Json.null.text.toList = ['n', 'u', 'l', 'l']) fun depth fuel rest _ _ => ?_
  rw [written]
  exact wordAt_append _ _ rest

theorem bool_reads (b : Bool) : (Json.bool b).Reads := by
  cases b with
  | true =>
    refine reads_of_cons (by decide : (Json.bool true).text.toList = ['t', 'r', 'u', 'e']) fun depth fuel rest _ _ => ?_
    rw [written]
    exact wordAt_append _ _ rest
  | false =>
    refine reads_of_cons (by decide : (Json.bool false).text.toList = ['f', 'a', 'l', 's', 'e']) fun depth fuel rest _ _ => ?_
    rw [written]
    exact wordAt_append _ _ rest

theorem number_reads {n : Number} (h : (Json.number n).Held) : (Json.number n).Reads := by
  rw [Held] at h
  obtain ⟨c, cs, htext, hc⟩ := Number.text_start h.1 h.2
  refine reads_of_cons (by rw [text, htext]) fun depth fuel rest _ hrest => ?_
  rw [valueAt_number hc, ← List.cons_append, ← htext, Number.numberAt_text h.1 h.2 hrest, written]

theorem string_reads (s : String) : (Json.string s).Reads := by
  refine reads_of_cons (by rw [text, stringText_toList]) fun depth fuel rest _ _ => ?_
  rw [List.append_assoc, written]
  exact stringAt_text s rest

theorem endsNumber_bracket (rest : List Char) : EndsNumber (']' :: rest) :=
  endsNumber_cons (by decide) (by decide) (by decide) (by decide) rest

theorem endsNumber_brace (rest : List Char) : EndsNumber ('\x7d' :: rest) :=
  endsNumber_cons (by decide) (by decide) (by decide) (by decide) rest

section Items
variable {v w : Json} {items : List Json} (hv : v.Reads)
include hv

theorem itemsRead_one : ItemsRead [v] := by
  intro depth fuel rest hfuel
  rw [itemsText] at hfuel ⊢
  obtain ⟨fuel, rfl⟩ : ∃ k, fuel = k + 1 := ⟨fuel - 1, by omega⟩
  rw [writtenItems, writtenItems]
  exact itemsAt_last (hv depth fuel _ (by omega) (endsNumber_bracket rest))

theorem itemsRead_cons (hrest : ItemsRead (w :: items)) : ItemsRead (v :: w :: items) := by
  intro depth fuel rest hfuel
  rw [itemsText_cons, List.length_append, List.length_cons] at hfuel
  obtain ⟨fuel, rfl⟩ : ∃ k, fuel = k + 1 := ⟨fuel - 1, by omega⟩
  rw [itemsText_cons, List.append_assoc, List.cons_append,
    itemsAt_next (hv depth fuel _ (by omega) (endsNumber_comma _)), hrest depth fuel rest (by omega)]
  simp only [writtenItems]

end Items

theorem array_reads {items : List Json}
    (hstart : ∃ c cs, (itemsText items).toList = c :: cs ∧ isSpace c = false ∧ c ≠ ']')
    (h : ItemsRead items) : (Json.array items).Reads := by
  refine reads_of_cons (array_text items) fun depth fuel rest hfuel _ => ?_
  obtain ⟨c, cs, htext, hspace, hclose⟩ := hstart
  have hitems := h (depth + 1) fuel rest (by rw [List.length_append] at hfuel; omega)
  rw [htext, List.cons_append] at hitems
  rw [htext, List.append_assoc, List.cons_append, List.singleton_append, valueAt_items hspace hclose, hitems]
  refine atDepth_written ?_ (by rw [written])
  rw [Document.skip, skipItems_written]
  rfl

theorem empty_array_reads : (Json.array []).Reads := by
  refine reads_of_cons (array_text []) fun depth fuel rest _ _ => ?_
  rw [itemsText, written, writtenItems]
  exact atDepth_written (by rw [Document.skip, Document.skipItems]; rfl) rfl

section Fields
variable {v : Json} {f : String × Json} {fields : List (String × Json)} (hv : v.Reads) (n : String)
include hv

theorem fieldsRead_one : FieldsRead [(n, v)] := by
  intro depth fuel rest hfuel
  rw [fieldsText_one] at hfuel ⊢
  simp only [List.length_cons, List.length_append] at hfuel
  obtain ⟨fuel, rfl⟩ : ∃ k, fuel = k + 1 := ⟨fuel - 1, by omega⟩
  rw [List.cons_append, List.append_assoc, List.cons_append, List.cons_append, writtenFields, writtenFields]
  exact fieldsAt_last (stringAt_text n _) (hv depth fuel _ (by omega) (endsNumber_brace rest))

theorem fieldsRead_cons (hrest : FieldsRead (f :: fields)) : FieldsRead ((n, v) :: f :: fields) := by
  intro depth fuel rest hfuel
  rw [fieldsText_cons] at hfuel ⊢
  simp only [List.length_cons, List.length_append] at hfuel
  obtain ⟨fuel, rfl⟩ : ∃ k, fuel = k + 1 := ⟨fuel - 1, by omega⟩
  rw [List.cons_append, List.append_assoc, List.cons_append, List.cons_append, List.append_assoc,
    List.cons_append, fieldsAt_next (stringAt_text n _) (hv depth fuel _ (by omega) (endsNumber_comma _)),
    hrest depth fuel rest (by omega)]
  simp only [writtenFields]

end Fields

theorem object_reads {fields : List (String × Json)} (hstart : ∃ cs, (fieldsText fields).toList = '"' :: cs)
    (h : FieldsRead fields) : (Json.object fields).Reads := by
  refine reads_of_cons (object_text fields) fun depth fuel rest hfuel _ => ?_
  obtain ⟨cs, htext⟩ := hstart
  have hfields := h (depth + 1) fuel rest (by rw [List.length_append] at hfuel; omega)
  rw [htext, List.cons_append] at hfields
  rw [htext, List.append_assoc, List.cons_append, List.singleton_append, valueAt_fields, hfields]
  refine atDepth_written ?_ (by rw [written])
  rw [Document.skip, skipFields_written]
  rfl

theorem empty_object_reads : (Json.object []).Reads := by
  refine reads_of_cons (object_text []) fun depth fuel rest _ _ => ?_
  rw [fieldsText, written, writtenFields]
  exact atDepth_written (by rw [Document.skip, Document.skipFields]; rfl) rfl

theorem fieldsText_start (n : String) (v : Json) (fields : List (String × Json)) :
    ∃ cs, (fieldsText ((n, v) :: fields)).toList = '"' :: cs := by
  cases fields with
  | nil => exact ⟨_, fieldsText_one n v⟩
  | cons f fields => exact ⟨_, fieldsText_cons n v f fields⟩

theorem itemsText_start {v : Json} (h : v.Held) (items : List Json) :
    ∃ c cs, (itemsText (v :: items)).toList = c :: cs ∧ isSpace c = false ∧ c ≠ ']' := by
  obtain ⟨c, cs, htext, hc⟩ := text_start v h
  cases items with
  | nil => exact ⟨c, cs, by rw [itemsText, htext], hc⟩
  | cons w items => exact ⟨c, _, by rw [itemsText_cons, htext]; rfl, hc⟩

-- The readers call each other as the writers do.
mutual

/-- **A value's text is read to its end.** -/
theorem reads_of_held : (v : Json) → v.Held → v.Reads
  | .null, _ => null_reads
  | .bool b, _ => bool_reads b
  | .number _, h => number_reads h
  | .string s, _ => string_reads s
  | .array [], _ => empty_array_reads
  | .array (v :: items), h => by
    rw [Held] at h
    have hread := itemsRead_of_held (v :: items) (List.cons_ne_nil _ _) h
    rw [ItemsHeld] at h
    exact array_reads (itemsText_start h.1 items) hread
  | .object [], _ => empty_object_reads
  | .object ((n, v) :: fields), h => by
    rw [Held] at h
    exact object_reads (fieldsText_start n v fields)
      (fieldsRead_of_held ((n, v) :: fields) (List.cons_ne_nil _ _) h)

theorem itemsRead_of_held : (items : List Json) → items ≠ [] → ItemsHeld items → ItemsRead items
  | [], hne, _ => absurd rfl hne
  | [v], _, h => by
    rw [ItemsHeld] at h
    exact itemsRead_one (reads_of_held v h.1)
  | v :: w :: items, _, h => by
    rw [ItemsHeld] at h
    exact itemsRead_cons (reads_of_held v h.1) (itemsRead_of_held (w :: items) (List.cons_ne_nil _ _) h.2)

theorem fieldsRead_of_held : (fields : List (String × Json)) → fields ≠ [] → FieldsHeld fields → FieldsRead fields
  | [], hne, _ => absurd rfl hne
  | [(n, v)], _, h => by
    rw [FieldsHeld] at h
    exact fieldsRead_one (reads_of_held v h.1) n
  | (n, v) :: f :: fields, _, h => by
    rw [FieldsHeld] at h
    exact fieldsRead_cons (reads_of_held v h.1) n (fieldsRead_of_held (f :: fields) (List.cons_ne_nil _ _) h.2)

end

/-- The document of a value's text. -/
theorem document_text {v : Json} (h : v.Held) : document v.text = (written 0 v, none) := by
  have hread := reads_of_held v h 0 (2 * v.text.toList.length + 2) [] (by omega) endsNumber_nil
  rw [List.append_nil] at hread
  rw [document, hread]
  rfl

end BucketQuery.Json
