import BucketQuery.Proofs.Json.Depth

/-! The numbers of what was read.

Every number of a document that was read from a text is one that texts give (`document_held`), and so is every
number of a value that was taken from such a document (`Document.toJson_held`). -/
namespace BucketQuery

namespace Document

mutual

/-- All numbers of the document are such as texts give. -/
def Held : Document → Prop
  | .number n => n.Held
  | .plain _ meaning => meaning.Held
  | .sequence items _ => ItemsHeld items
  | .mapping fields _ => FieldsHeld fields
  | .null | .bool _ | .string _ | .broken _ => True

def ItemsHeld : List Document → Prop
  | [] => True
  | d :: rest => d.Held ∧ ItemsHeld rest

def FieldsHeld : List (String × Document) → Prop
  | [] => True
  | (_, d) :: rest => d.Held ∧ FieldsHeld rest

end

theorem itemsHeld_iff (items : List Document) : ItemsHeld items ↔ ∀ d ∈ items, d.Held := by
  induction items with
  | nil =>
    rw [ItemsHeld]
    exact iff_of_true trivial fun d hd => absurd hd List.not_mem_nil
  | cons d rest ih => rw [ItemsHeld, List.forall_mem_cons, ih]

theorem fieldsHeld_iff (fields : List (String × Document)) : FieldsHeld fields ↔ ∀ f ∈ fields, f.2.Held := by
  induction fields with
  | nil =>
    rw [FieldsHeld]
    exact iff_of_true trivial fun f hf => absurd hf List.not_mem_nil
  | cons f rest ih => rw [FieldsHeld, List.forall_mem_cons, ih]

theorem inner_held {d : Document} (h : d.Held) : ∀ e ∈ d.inner, e.Held := by
  cases d with
  | sequence items stop =>
    rw [Held] at h
    exact (itemsHeld_iff items).mp h
  | mapping fields stop =>
    rw [Held] at h
    exact List.forall_mem_map.mpr ((fieldsHeld_iff fields).mp h)
  | null | bool | number | string | plain | broken => exact fun e he => absurd he List.not_mem_nil

mutual

theorem ofJson_held : (v : Json) → v.Held → (ofJson v).Held
  | .null, _ | .bool _, _ | .string _, _ => by rw [ofJson, Held]; trivial
  | .number n, h => by
    rw [Json.Held] at h
    rw [ofJson, Held]
    exact h.1
  | .array items, h => by
    rw [Json.Held] at h
    rw [ofJson, Held]
    exact ofItems_held items h
  | .object fields, h => by
    rw [Json.Held] at h
    rw [ofJson, Held]
    exact ofFields_held fields h

theorem ofItems_held : (items : List Json) → Json.ItemsHeld items → ItemsHeld (ofItems items)
  | [], _ => by
    rw [ofItems, ItemsHeld]
    trivial
  | v :: rest, h => by
    rw [Json.ItemsHeld] at h
    rw [ofItems, ItemsHeld]
    exact ⟨ofJson_held v h.1, ofItems_held rest h.2⟩

theorem ofFields_held : (fields : List (String × Json)) → Json.FieldsHeld fields → FieldsHeld (ofFields fields)
  | [], _ => by
    rw [ofFields, FieldsHeld]
    trivial
  | (n, v) :: rest, h => by
    rw [Json.FieldsHeld] at h
    rw [ofFields, FieldsHeld]
    exact ⟨ofJson_held v h.1, ofFields_held rest h.2⟩

end

end Document

namespace Json

theorem fieldsHeld_iff (fields : List (String × Json)) : FieldsHeld fields ↔ ∀ f ∈ fields, f.2.Held := by
  induction fields with
  | nil =>
    rw [FieldsHeld]
    exact iff_of_true trivial fun f hf => absurd hf List.not_mem_nil
  | cons f rest ih => rw [FieldsHeld, List.forall_mem_cons, ih]

theorem ofNumber_held {n : Number} (h : n.Held) : (ofNumber n).Held := by
  cases n with
  | int n =>
    rw [ofNumber, int, Held]
    exact ⟨h, rfl⟩
  | float x =>
    rw [ofNumber]
    split_ifs with hx
    · rw [float, Held, isFinite]
      exact ⟨h, hx⟩
    · rw [Held]
      trivial

theorem ofFields_held {fields : List (String × Json)} (h : FieldsHeld fields) : (ofFields fields).Held := by
  obtain ⟨kept, hkept, hheld⟩ := forall_ofFields (P := Json.Held) ((fieldsHeld_iff fields).mp h)
  rw [hkept, Held]
  exact (fieldsHeld_iff kept).mpr hheld

end Json

namespace Document

mutual

/-- A value has no numbers but those of its document. -/
theorem toJson_held {src : Source} : (d : Document) → d.Held → {v : Json} → d.toJson src = .ok v → v.Held
  | .null, _, v, h => by
    rw [toJson] at h
    cases h
    rw [Json.Held]
    trivial
  | .bool b, _, v, h => by
    rw [toJson] at h
    cases h
    rw [Json.Held]
    trivial
  | .number n, hd, v, h => by
    rw [Held] at hd
    rw [Json.toJson_number] at h
    cases h
    exact Json.ofNumber_held hd
  | .string s, _, v, h => by
    rw [toJson] at h
    cases h
    rw [Json.Held]
    trivial
  | .plain _ meaning, hd, v, h => by
    rw [Held] at hd
    rw [toJson] at h
    exact toJson_held meaning hd h
  | .sequence items stop, hd, v, h => by
    rw [Held] at hd
    rw [toJson] at h
    obtain ⟨values, hvalues, h⟩ := ok_of_bind h
    cases stop with
    | some b => cases h
    | none =>
      cases h
      rw [Json.Held]
      exact itemsToJson_held items hd hvalues
  | .mapping fields stop, hd, v, h => by
    rw [Held] at hd
    rw [toJson] at h
    obtain ⟨values, hvalues, h⟩ := ok_of_bind h
    have hheld := fieldsToJson_held fields hd hvalues
    cases stop with
    | some b => cases h
    | none =>
      cases h
      split_ifs
      · rw [Json.Held]
        exact hheld
      · exact Json.ofFields_held hheld
  | .broken b, _, v, h => by
    rw [toJson] at h
    cases h

theorem itemsToJson_held {src : Source} :
    (items : List Document) → ItemsHeld items → {values : List Json} → itemsToJson src items = .ok values →
      Json.ItemsHeld values
  | [], _, values, h => by
    rw [itemsToJson] at h
    cases h
    rw [Json.ItemsHeld]
    trivial
  | d :: rest, hd, values, h => by
    rw [ItemsHeld] at hd
    rw [itemsToJson] at h
    obtain ⟨v, hv, h⟩ := ok_of_bind h
    obtain ⟨vs, hvs, h⟩ := ok_of_bind h
    cases h
    rw [Json.ItemsHeld]
    exact ⟨toJson_held d hd.1 hv, itemsToJson_held rest hd.2 hvs⟩

theorem fieldsToJson_held {src : Source} :
    (fields : List (String × Document)) → FieldsHeld fields → {values : List (String × Json)} →
      fieldsToJson src fields = .ok values → Json.FieldsHeld values
  | [], _, values, h => by
    rw [fieldsToJson] at h
    cases h
    rw [Json.FieldsHeld]
    trivial
  | (n, d) :: rest, hd, values, h => by
    rw [FieldsHeld] at hd
    rw [fieldsToJson] at h
    obtain ⟨v, hv, h⟩ := ok_of_bind h
    obtain ⟨vs, hvs, h⟩ := ok_of_bind h
    cases h
    rw [Json.FieldsHeld]
    exact ⟨toJson_held d hd.1 hv, fieldsToJson_held rest hd.2 hvs⟩

end

end Document

/-! ### Texts -/

namespace Json.Reading

theorem stringAt_held (cs : List Char) : (stringAt cs).1.Held := by
  rw [stringAt]
  split <;> simp only [Document.Held]

theorem numberAt_held (cs : List Char) : (numberAt cs).1.Held := by
  rw [numberAt]
  split
  · simp only [Document.Held]
  · split
    · rename_i hv
      rw [Document.Held]
      exact Numeral.number?_held hv
    · simp only [Document.Held]

theorem wordAt_held (word : List Char) {meaning : Document} (h : meaning.Held) (cs : List Char) :
    (wordAt word meaning cs).1.Held := by
  induction word generalizing cs with
  | nil =>
    rw [wordAt]
    exact h
  | cons w ws ih =>
    cases cs with
    | nil =>
      rw [wordAt]
      simp only [Document.Held]
    | cons c cs =>
      rw [wordAt]
      split_ifs
      · exact ih cs
      · simp only [Document.Held]

theorem atDepth_held (depth : Nat) {r : Read} (h : r.1.Held) : (atDepth depth r).1.Held := by
  rw [atDepth]
  split_ifs
  · exact h
  · simp only [Document.Held]

section Steps
variable {fuel : Nat}

theorem itemsAt_held (hvalue : ∀ depth cs, (valueAt depth fuel cs).1.Held)
    (hitems : ∀ depth cs, Document.ItemsHeld (itemsAt depth fuel cs).1) (depth : Nat) (cs : List Char) :
    Document.ItemsHeld (itemsAt depth (fuel + 1) cs).1 := by
  have hitem := hvalue depth cs
  rw [itemsAt]
  split
  · rename_i hread
    rw [hread] at hitem
    simp only [Document.ItemsHeld]
    exact ⟨hitem, trivial⟩
  · rename_i hread
    rw [hread] at hitem
    split
    · simp only [Document.ItemsHeld]
      exact ⟨hitem, trivial⟩
    · simp only [Document.ItemsHeld]
      exact ⟨hitem, hitems _ _⟩
    · simp only [Document.ItemsHeld]
      exact ⟨hitem, trivial⟩

theorem fieldsAt_held (hvalue : ∀ depth cs, (valueAt depth fuel cs).1.Held)
    (hfields : ∀ depth cs, Document.FieldsHeld (fieldsAt depth fuel cs).1) (depth : Nat) (cs : List Char) :
    Document.FieldsHeld (fieldsAt depth (fuel + 1) cs).1 := by
  have hnil : Document.FieldsHeld [] := by rw [Document.FieldsHeld]; trivial
  rw [fieldsAt]
  split
  · split
    · exact hnil
    · split
      · rename_i behind _
        have hread := hvalue depth behind
        generalize valueAt depth fuel behind = r at hread ⊢
        obtain ⟨value, rest⟩ := r
        dsimp only
        split
        · rw [Document.FieldsHeld]
          refine ⟨hread, ?_⟩
          split
          · exact hnil
          · split
            · exact hnil
            · exact hfields _ _
            · exact hnil
        · exact hnil
        · exact hnil
      · split <;> exact hnil
  · exact hnil

theorem valueAt_held (hitems : ∀ depth cs, Document.ItemsHeld (itemsAt depth fuel cs).1)
    (hfields : ∀ depth cs, Document.FieldsHeld (fieldsAt depth fuel cs).1) (depth : Nat) (cs : List Char) :
    (valueAt depth (fuel + 1) cs).1.Held := by
  rw [valueAt]
  split
  · simp only [Document.Held]
  · exact stringAt_held _
  · split
    · exact atDepth_held depth (by simp only [Document.Held, Document.ItemsHeld])
    · exact atDepth_held depth (by simp only [Document.Held, Document.ItemsHeld])
    · refine atDepth_held depth ?_
      dsimp only
      rw [Document.Held]
      exact hitems _ _
  · split
    · exact atDepth_held depth (by simp only [Document.Held, Document.FieldsHeld])
    · refine atDepth_held depth ?_
      dsimp only
      rw [Document.Held]
      exact hfields _ _
  · exact wordAt_held _ (by simp only [Document.Held]) _
  · exact wordAt_held _ (by simp only [Document.Held]) _
  · exact wordAt_held _ (by simp only [Document.Held]) _
  · split_ifs
    · exact numberAt_held _
    · simp only [Document.Held]

end Steps

/-- Whatever is read of a text has numbers only that texts give. -/
theorem at_held (fuel : Nat) :
    (∀ depth cs, (valueAt depth fuel cs).1.Held) ∧
      (∀ depth cs, Document.ItemsHeld (itemsAt depth fuel cs).1) ∧
      (∀ depth cs, Document.FieldsHeld (fieldsAt depth fuel cs).1) := by
  induction fuel with
  | zero =>
    refine ⟨fun depth cs => ?_, fun depth cs => ?_, fun depth cs => ?_⟩
    · rw [valueAt, Document.Held]
      trivial
    · rw [itemsAt, Document.ItemsHeld]
      trivial
    · rw [fieldsAt, Document.FieldsHeld]
      trivial
  | succ fuel ih =>
    obtain ⟨hvalue, hitems, hfields⟩ := ih
    exact ⟨valueAt_held hitems hfields, itemsAt_held hvalue hitems, fieldsAt_held hvalue hfields⟩

end Json.Reading

theorem Json.document_held (text : String) : (Json.document text).1.Held := by
  have hread := (Json.Reading.at_held (2 * text.toList.length + 2)).1 0 text.toList
  rw [Json.document]
  split
  · rename_i h
    rw [h] at hread
    exact hread
  · rename_i h
    rw [h] at hread
    exact hread

end BucketQuery
