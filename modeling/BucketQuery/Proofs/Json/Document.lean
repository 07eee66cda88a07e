import BucketQuery.Json.Document
import BucketQuery.Proofs.Outcome
import Mathlib.Tactic.SplitIfs

/-! The document of a value and the value of a document.

JSON has no number that is not finite: such a one is read as null. A value without any is the value of
its own document (`Document.toJson_ofJson`), and the value of a document has none, whatever the source
(`Document.isFinite_of_toJson`). -/
namespace BucketQuery

namespace Json

mutual

/-- All numbers of the value are finite. -/
def isFinite : Json → Bool
  | .number (.float x) => x.isFinite
  | .array items => itemsFinite items
  | .object fields => fieldsFinite fields
  | .null | .bool _ | .number (.int _) | .string _ => true

def itemsFinite : List Json → Bool
  | [] => true
  | v :: rest => v.isFinite && itemsFinite rest

def fieldsFinite : List (String × Json) → Bool
  | [] => true
  | (_, v) :: rest => v.isFinite && fieldsFinite rest

end

theorem itemsFinite_iff (items : List Json) :
    itemsFinite items = true ↔ ∀ v ∈ items, v.isFinite = true := by
  induction items with
  | nil => exact iff_of_true rfl fun v hv => absurd hv List.not_mem_nil
  | cons v rest ih => rw [itemsFinite, Bool.and_eq_true, List.forall_mem_cons, ih]

theorem fieldsFinite_iff (fields : List (String × Json)) :
    fieldsFinite fields = true ↔ ∀ f ∈ fields, f.2.isFinite = true := by
  induction fields with
  | nil => exact iff_of_true rfl fun f hf => absurd hf List.not_mem_nil
  | cons f rest ih => rw [fieldsFinite, Bool.and_eq_true, List.forall_mem_cons, ih]

/-- What holds of all values of some fields and of one more holds of all when that one is put among them. -/
theorem forall_putField {P : Json → Prop} {name : String} {v : Json} {fields : List (String × Json)} (hv : P v)
    (h : ∀ f ∈ fields, P f.2) : ∀ f ∈ putField name v fields, P f.2 := by
  induction fields with
  | nil => exact List.forall_mem_singleton.mpr hv
  | cons f rest ih =>
    obtain ⟨n, w⟩ := f
    obtain ⟨hw, hrest⟩ := List.forall_mem_cons.mp h
    rw [putField]
    split_ifs
    · exact List.forall_mem_cons.mpr ⟨hv, h⟩
    · exact List.forall_mem_cons.mpr ⟨hv, hrest⟩
    · exact List.forall_mem_cons.mpr ⟨hw, ih hrest⟩

/-- An object has no values but those of the fields it was made of. -/
theorem forall_ofFields {P : Json → Prop} {fields : List (String × Json)} (h : ∀ f ∈ fields, P f.2) :
    ∃ kept, ofFields fields = .object kept ∧ ∀ f ∈ kept, P f.2 := by
  refine ⟨_, rfl, ?_⟩
  suffices hkept : ∀ kept : List (String × Json), (∀ f ∈ kept, P f.2) →
      ∀ f ∈ fields.foldl (fun kept f => putField f.1 f.2 kept) kept, P f.2 from
    hkept [] fun f hf => absurd hf List.not_mem_nil
  induction fields with
  | nil => exact fun kept hkept => hkept
  | cons f rest ih =>
    intro kept hkept
    obtain ⟨hf, hrest⟩ := List.forall_mem_cons.mp h
    exact ih hrest _ (forall_putField hf hkept)

theorem ofFields_isFinite {fields : List (String × Json)} (h : fieldsFinite fields = true) :
    (ofFields fields).isFinite = true := by
  obtain ⟨kept, hkept, hfinite⟩ := forall_ofFields (P := fun v => v.isFinite = true) ((fieldsFinite_iff fields).mp h)
  rw [hkept, isFinite]
  exact (fieldsFinite_iff kept).mpr hfinite

end Json

namespace Document

open Json (isFinite itemsFinite fieldsFinite)

/-- The documents that stand directly in a document. -/
def inner : Document → List Document
  | .sequence items _ => items
  | .mapping fields _ => fields.map Prod.snd
  | .null | .bool _ | .number _ | .string _ | .plain .. | .broken _ => []

mutual

/-- A value is read back from its document. -/
theorem toJson_ofJson : (v : Json) → v.isFinite = true → (ofJson v).toJson .value = .ok v
  | .null, _ => by rw [ofJson, toJson]
  | .bool b, _ => by rw [ofJson, toJson]
  | .number (.int n), _ => by
    rw [ofJson, toJson]
    rfl
  | .number (.float x), h => by
    rw [isFinite] at h
    rw [ofJson, toJson, if_pos h]
    rfl
  | .string s, _ => by rw [ofJson, toJson]
  | .array items, h => by
    rw [isFinite] at h
    rw [ofJson, toJson, itemsToJson_ofItems items h]
    rfl
  | .object fields, h => by
    rw [isFinite] at h
    rw [ofJson, toJson, fieldsToJson_ofFields fields h]
    rfl

theorem itemsToJson_ofItems :
    (items : List Json) → itemsFinite items = true → itemsToJson .value (ofItems items) = .ok items
  | [], _ => by rw [ofItems, itemsToJson]
  | v :: rest, h => by
    rw [itemsFinite, Bool.and_eq_true] at h
    rw [ofItems, itemsToJson, toJson_ofJson v h.1, itemsToJson_ofItems rest h.2]
    rfl

theorem fieldsToJson_ofFields :
    (fields : List (String × Json)) → fieldsFinite fields = true →
      fieldsToJson .value (ofFields fields) = .ok fields
  | [], _ => by rw [ofFields, fieldsToJson]
  | (n, v) :: rest, h => by
    rw [fieldsFinite, Bool.and_eq_true] at h
    rw [ofFields, fieldsToJson, toJson_ofJson v h.1, fieldsToJson_ofFields rest h.2]
    rfl

end

theorem toJson_of_isNull {src : Source} : (d : Document) → d.isNull = true → d.toJson src = .ok .null
  | .null, _ => by rw [toJson]
  | .plain _ meaning, h => by
    rw [isNull] at h
    rw [toJson, toJson_of_isNull meaning h]
  | .bool _, h | .number _, h | .string _, h | .sequence .., h | .mapping .., h | .broken _, h => by
    cases h

mutual

/-- What is read has finite numbers only. -/
theorem isFinite_of_toJson {src : Source} :
    (d : Document) → {v : Json} → d.toJson src = .ok v → v.isFinite = true
  | .null, v, h => by
    rw [toJson] at h
    cases h
    rfl
  | .bool b, v, h => by
    rw [toJson] at h
    cases h
    rfl
  | .number (.int n), v, h => by
    rw [toJson] at h
    cases h
    rfl
  | .number (.float x), v, h => by
    rw [toJson] at h
    cases h
    split_ifs with hx
    · exact hx
    · rfl
  | .string s, v, h => by
    rw [toJson] at h
    cases h
    rfl
  | .plain _ meaning, v, h => by
    rw [toJson] at h
    exact isFinite_of_toJson meaning h
  | .sequence items stop, v, h => by
    rw [toJson] at h
    obtain ⟨values, hvalues, h⟩ := ok_of_bind h
    cases stop with
    | some b => cases h
    | none =>
      cases h
      exact itemsFinite_of_toJson items hvalues
  | .mapping fields stop, v, h => by
    rw [toJson] at h
    obtain ⟨values, hvalues, h⟩ := ok_of_bind h
    have hfinite := fieldsFinite_of_toJson fields hvalues
    cases stop with
    | some b => cases h
    | none =>
      cases h
      split_ifs
      · exact hfinite
      · exact Json.ofFields_isFinite hfinite
  | .broken b, v, h => by
    rw [toJson] at h
    cases h

theorem itemsFinite_of_toJson {src : Source} :
    (items : List Document) → {values : List Json} → itemsToJson src items = .ok values →
      itemsFinite values = true
  | [], values, h => by
    rw [itemsToJson] at h
    cases h
    rfl
  | d :: rest, values, h => by
    rw [itemsToJson] at h
    obtain ⟨v, hv, h⟩ := ok_of_bind h
    obtain ⟨vs, hvs, h⟩ := ok_of_bind h
    cases h
    rw [itemsFinite, isFinite_of_toJson d hv, itemsFinite_of_toJson rest hvs, Bool.and_self]

theorem fieldsFinite_of_toJson {src : Source} :
    (fields : List (String × Document)) → {values : List (String × Json)} →
      fieldsToJson src fields = .ok values → fieldsFinite values = true
  | [], values, h => by
    rw [fieldsToJson] at h
    cases h
    rfl
  | (n, d) :: rest, values, h => by
    rw [fieldsToJson] at h
    obtain ⟨v, hv, h⟩ := ok_of_bind h
    obtain ⟨vs, hvs, h⟩ := ok_of_bind h
    cases h
    rw [fieldsFinite, isFinite_of_toJson d hv, fieldsFinite_of_toJson rest hvs, Bool.and_self]

end

end Document

end BucketQuery
