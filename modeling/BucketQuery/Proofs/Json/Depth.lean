import BucketQuery.Proofs.Json.Text

/-! How deep a value may be to be read back.

A text is read as a value exactly if no more than 127 containers enclose one another in it
(`toJson_written`). -/
namespace BucketQuery.Json

open Reading

mutual

/-- How many containers enclose one another in a value, the value among them. -/
def depth : Json → Nat
  | .array items => itemsDepth items + 1
  | .object fields => fieldsDepth fields + 1
  | .null | .bool _ | .number _ | .string _ => 0

def itemsDepth : List Json → Nat
  | [] => 0
  | v :: rest => max v.depth (itemsDepth rest)

def fieldsDepth : List (String × Json) → Nat
  | [] => 0
  | (_, v) :: rest => max v.depth (fieldsDepth rest)

end

/-- The value of a number. -/
def ofNumber : Number → Json
  | .int n => .int n
  | .float x => if x.isFinite then .float x else .null

mutual

/-- The value that is read where a value was written. -/
def reread : Json → Json
  | .null => .null
  | .bool b => .bool b
  | .number n => ofNumber n.reread
  | .string s => .string s
  | .array items => .array (rereadItems items)
  | .object fields => ofFields (rereadFields fields)

def rereadItems : List Json → List Json
  | [] => []
  | v :: rest => v.reread :: rereadItems rest

def rereadFields : List (String × Json) → List (String × Json)
  | [] => []
  | (n, v) :: rest => (n, v.reread) :: rereadFields rest

end

theorem ofNumber_isFinite (n : Number) : (ofNumber n).isFinite = true := by
  cases n with
  | int n => rfl
  | float x =>
    rw [ofNumber]
    split_ifs with hx
    · exact hx
    · rfl

mutual

theorem reread_isFinite : (v : Json) → v.reread.isFinite = true
  | .null | .bool _ | .string _ => by rw [reread]; rfl
  | .number n => by rw [reread, ofNumber_isFinite]
  | .array items => by rw [reread, isFinite, rereadItems_finite items]
  | .object fields => by rw [reread, ofFields_isFinite (rereadFields_finite fields)]

theorem rereadItems_finite : (items : List Json) → itemsFinite (rereadItems items) = true
  | [] => by rw [rereadItems, itemsFinite]
  | v :: rest => by
    rw [rereadItems, itemsFinite, reread_isFinite v, rereadItems_finite rest, Bool.and_self]

theorem rereadFields_finite : (fields : List (String × Json)) → fieldsFinite (rereadFields fields) = true
  | [] => by rw [rereadFields, fieldsFinite]
  | (n, v) :: rest => by
    rw [rereadFields, fieldsFinite, reread_isFinite v, rereadFields_finite rest, Bool.and_self]

end

theorem toJson_number (src : Source) (n : Number) : (Document.number n).toJson src = .ok (ofNumber n) := by
  cases n <;> rw [Document.toJson] <;> rfl

/-- Two readings in a row succeed if there is room for both. -/
theorem bind_room {α β γ : Type} {p q r : Prop} [Decidable p] [Decidable q] [Decidable r] (hroom : r ↔ p ∧ q)
    (a : α) (b : β) (f : α → β → γ) :
    (do
      let x ← (if p then Except.ok a else .error Fault.malformed)
      let y ← (if q then Except.ok b else .error Fault.malformed)
      return f x y) = if r then Except.ok (f a b) else .error .malformed := by
  by_cases hp : p
  · by_cases hq : q
    · rw [if_pos hp, if_pos hq, if_pos (hroom.mpr ⟨hp, hq⟩)]
      rfl
    · rw [if_pos hp, if_neg hq, if_neg fun hr => hq (hroom.mp hr).2]
      rfl
  · rw [if_neg hp, if_neg fun hr => hp (hroom.mp hr).1]
    rfl

-- A container asks for one level more than what is in it, and has one level less above it.
mutual

/-- **A value is read back as far as it is not too deep.** -/
theorem toJson_written {depth : Nat} (hdepth : depth ≤ deepest) :
    (v : Json) → (written depth v).toJson .json =
      if depth + v.depth ≤ deepest then .ok v.reread else .error .malformed
  | .null => by
    rw [written, Document.toJson, Json.depth, reread, if_pos (by omega)]
  | .bool b => by
    rw [written, Document.toJson, Json.depth, reread, if_pos (by omega)]
  | .number n => by
    rw [written, toJson_number, Json.depth, reread, if_pos (by omega)]
  | .string s => by
    rw [written, Document.toJson, Json.depth, reread, if_pos (by omega)]
  | .array items => by
    rw [written, Json.depth, reread]
    by_cases hbelow : depth < deepest
    · rw [if_pos hbelow, Document.toJson, itemsToJson_written hbelow items]
      by_cases hitems : depth + 1 + itemsDepth items ≤ deepest
      · rw [if_pos hitems, if_pos (by omega)]
        rfl
      · rw [if_neg hitems, if_neg (by omega)]
        rfl
    · rw [if_neg hbelow, Document.toJson, if_neg (by omega)]
  | .object fields => by
    rw [written, Json.depth, reread]
    by_cases hbelow : depth < deepest
    · rw [if_pos hbelow, Document.toJson, fieldsToJson_written hbelow fields]
      by_cases hfields : depth + 1 + fieldsDepth fields ≤ deepest
      · rw [if_pos hfields, if_pos (by omega)]
        rfl
      · rw [if_neg hfields, if_neg (by omega)]
        rfl
    · rw [if_neg hbelow, Document.toJson, if_neg (by omega)]

theorem itemsToJson_written {depth : Nat} (hdepth : depth ≤ deepest) :
    (items : List Json) → Document.itemsToJson .json (writtenItems depth items) =
      if depth + itemsDepth items ≤ deepest then .ok (rereadItems items) else .error .malformed
  | [] => by
    rw [writtenItems, Document.itemsToJson, itemsDepth, rereadItems, if_pos (by omega)]
  | v :: rest => by
    rw [writtenItems, Document.itemsToJson, toJson_written hdepth v, itemsToJson_written hdepth rest, itemsDepth,
      rereadItems]
    refine bind_room ?_ v.reread (rereadItems rest) (· :: ·)
    omega

theorem fieldsToJson_written {depth : Nat} (hdepth : depth ≤ deepest) :
    (fields : List (String × Json)) → Document.fieldsToJson .json (writtenFields depth fields) =
      if depth + fieldsDepth fields ≤ deepest then .ok (rereadFields fields) else .error .malformed
  | [] => by
    rw [writtenFields, Document.fieldsToJson, fieldsDepth, rereadFields, if_pos (by omega)]
  | (n, v) :: rest => by
    rw [writtenFields, Document.fieldsToJson, toJson_written hdepth v, fieldsToJson_written hdepth rest, fieldsDepth,
      rereadFields]
    refine bind_room ?_ v.reread (rereadFields rest) fun w ws => (n, w) :: ws
    omega

end

end BucketQuery.Json
