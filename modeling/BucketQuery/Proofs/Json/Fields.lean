import BucketQuery.Json.Document
import Mathlib.Data.List.Nodup

/-! The fields of an object, by name.

What an object has under a name depends neither on where it stands nor on what stands beside it: putting a
field changes what is under its name and nothing else (`valuesOf_putField`, `valuesOf_putField_ne`). -/
namespace BucketQuery

namespace Json

/-- The values under a name. An object whose names are distinct has at most one. -/
def valuesOf (name : String) (fields : List (String × Json)) : List Json :=
  (fields.filter fun f => f.1 = name).map Prod.snd

/-- The items of a list, none of anything else. -/
def items : Json → List Json
  | .array items => items
  | _ => []

theorem valuesOf_cons (name n : String) (v : Json) (rest : List (String × Json)) :
    valuesOf name ((n, v) :: rest) =
      if n = name then v :: valuesOf name rest else valuesOf name rest := by
  unfold valuesOf
  by_cases h : n = name
  · rw [List.filter_cons_of_pos (by simpa using h), if_pos h, List.map_cons]
  · rw [List.filter_cons_of_neg (by simpa using h), if_neg h]

theorem mem_valuesOf {name : String} {v : Json} {fields : List (String × Json)} :
    v ∈ valuesOf name fields ↔ (name, v) ∈ fields := by
  simp only [valuesOf, List.mem_map, List.mem_filter, decide_eq_true_eq, Prod.exists, exists_eq_right]

theorem valuesOf_eq_nil_iff {name : String} {fields : List (String × Json)} :
    valuesOf name fields = [] ↔ name ∉ fields.map Prod.fst := by
  simp only [valuesOf, List.map_eq_nil_iff, List.filter_eq_nil_iff, List.mem_map, decide_eq_true_eq,
    not_exists, not_and]

/-- Looking a name up gives the first of its values. -/
theorem lookup_eq_head? (name : String) (fields : List (String × Json)) :
    fields.lookup name = (valuesOf name fields).head? := by
  induction fields with
  | nil => rfl
  | cons f rest ih =>
    obtain ⟨n, v⟩ := f
    rw [valuesOf_cons, List.lookup_cons, ih]
    by_cases h : n = name
    · subst h
      rw [if_pos rfl, beq_self_eq_true]
      rfl
    · rw [if_neg h, beq_eq_false_iff_ne.mpr (Ne.symm h)]

theorem lookup_of_not_mem {name : String} {fields : List (String × Json)}
    (h : name ∉ fields.map Prod.fst) : fields.lookup name = none := by
  rw [lookup_eq_head?, valuesOf_eq_nil_iff.mpr h]
  rfl

theorem valuesOf_of_nodup (name : String) {fields : List (String × Json)}
    (h : (fields.map Prod.fst).Nodup) : valuesOf name fields = [] ∨ ∃ v, valuesOf name fields = [v] := by
  induction fields with
  | nil => exact .inl rfl
  | cons f rest ih =>
    obtain ⟨n, v⟩ := f
    rw [List.map_cons, List.nodup_cons] at h
    rw [valuesOf_cons]
    split
    · rename_i hname
      subst hname
      exact .inr ⟨v, by rw [valuesOf_eq_nil_iff.mpr h.1]⟩
    · exact ih h.2

theorem valuesOf_filter {name : String} {p : String → Bool} (h : p name = true)
    (fields : List (String × Json)) : valuesOf name (fields.filter fun f => p f.1) = valuesOf name fields := by
  unfold valuesOf
  rw [List.filter_filter]
  congr 1
  refine List.filter_congr fun f _ => ?_
  by_cases hf : f.1 = name
  · rw [hf, h, Bool.and_true]
  · simp only [hf, decide_false, Bool.false_and]

theorem valuesOf_filter_eq_nil {name : String} {p : String → Bool} (h : p name = false)
    (fields : List (String × Json)) : valuesOf name (fields.filter fun f => p f.1) = [] := by
  rw [valuesOf_eq_nil_iff]
  intro hmem
  obtain ⟨f, hf, rfl⟩ := List.mem_map.mp hmem
  rw [(List.mem_filter.mp hf).2] at h
  cases h

/-! ### Putting a field -/

section Put
variable {name : String} {v : Json}

theorem valuesOf_putField {fields : List (String × Json)} (h : valuesOf name fields = []) :
    valuesOf name (putField name v fields) = [v] := by
  induction fields with
  | nil => rw [putField, valuesOf_cons, if_pos rfl, h]
  | cons f rest ih =>
    obtain ⟨n, w⟩ := f
    have hrest := h
    rw [valuesOf_cons] at hrest
    split at hrest
    · cases hrest
    · rename_i hn
      rw [putField]
      split
      · rw [valuesOf_cons, if_pos rfl, h]
      · rw [if_neg (Ne.symm hn), valuesOf_cons, if_neg hn, ih hrest]

theorem valuesOf_putField_ne {key : String} (hkey : key ≠ name) (fields : List (String × Json)) :
    valuesOf key (putField name v fields) = valuesOf key fields := by
  induction fields with
  | nil => rw [putField, valuesOf_cons, if_neg (Ne.symm hkey)]
  | cons f rest ih =>
    obtain ⟨n, w⟩ := f
    rw [putField]
    split
    · rw [valuesOf_cons, if_neg (Ne.symm hkey)]
    · split
      · rename_i hn
        subst hn
        rw [valuesOf_cons, valuesOf_cons, if_neg (Ne.symm hkey), if_neg (Ne.symm hkey)]
      · rw [valuesOf_cons, valuesOf_cons, ih]

end Put

end Json

namespace Document

theorem ofItems_eq_map (vs : List Json) : ofItems vs = vs.map ofJson := by
  induction vs with
  | nil => rw [ofItems, List.map_nil]
  | cons v rest ih => rw [ofItems, List.map_cons, ih]

theorem ofJson_isNull {v : Json} (h : v ≠ .null) : (ofJson v).isNull = false := by
  cases v with
  | null => exact absurd rfl h
  | bool | number | string | array | object => rw [ofJson, isNull] <;> simp

mutual

/-- A value has no place that cannot be read. -/
theorem skip_ofJson : (v : Json) → (ofJson v).skip = none
  | .null | .bool _ | .number _ | .string _ => by rw [ofJson, skip] <;> simp
  | .array items => by
    rw [ofJson, skip, skipItems_ofItems items]
    rfl
  | .object fields => by
    rw [ofJson, skip, skipFields_ofFields fields]
    rfl

theorem skipItems_ofItems : (items : List Json) → skipItems (ofItems items) = none
  | [] => by rw [ofItems, skipItems]
  | v :: rest => by
    rw [ofItems, skipItems, skip_ofJson v, skipItems_ofItems rest]
    rfl

theorem skipFields_ofFields : (fields : List (String × Json)) → skipFields (ofFields fields) = none
  | [] => by rw [ofFields, skipFields]
  | (n, v) :: rest => by
    rw [ofFields, skipFields, skip_ofJson v, skipFields_ofFields rest]
    rfl

end

end Document

end BucketQuery
