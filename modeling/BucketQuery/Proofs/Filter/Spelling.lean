import BucketQuery.Filter.Decode
import BucketQuery.Proofs.Double.Layout
import BucketQuery.Proofs.Text.Blank

/-! Operators read back.

An operator is written under its own spelling, and one that is not recognized under the text it was
found as. Only the second kind needs an argument: its text must not be a spelling. It is not where a
text was read, and where a JSON value was found it is not because of how such values start. Main
statement: an operator that reading gave is read again from its text (`Operator.Obtained.ofText_text`). -/
namespace BucketQuery.Filter

namespace Operator

/-- Operators that reading gives, from a spelling or from a document. -/
inductive Obtained : Operator → Prop where
  | parsed (token : String) : Obtained (ofText token)
  | decoded {src : Source} {d : Document} {op : Operator} (h : decode src d = .ok op) : Obtained op

/-! ### Texts that are no spellings -/

/-- A character that is not blank and that no spelling starts with, letter case aside. -/
def Foreign (c : Char) : Prop :=
  Text.isBlank c = false ∧ ∀ p ∈ spellings, p.1.toList.head? ≠ some c.toUpper

instance (c : Char) : Decidable (Foreign c) := inferInstanceAs (Decidable (_ ∧ _))

theorem foreign_of_digit {c : Char} (h : c.isDigit = true) : Foreign c := by
  have hspellings : ∀ p ∈ spellings, p.1.toList.head?.any Char.isDigit = false := by decide
  refine ⟨Text.not_blank_of_digit h, fun p hp heq => ?_⟩
  have hdigit := hspellings p hp
  rw [heq, Text.toUpper_of_digit h, Option.any_some, h] at hdigit
  cases hdigit

theorem ofText_of_no_spelling {s : String}
    (h : ∀ p ∈ spellings, p.1.toList ≠ (Text.trim s).toList.map Char.toUpper) :
    ofText s = .unrecognized s := by
  have hnone : spellings.lookup (Text.trim s).toUpper = none := by
    rw [List.lookup_eq_none_iff]
    intro p hp
    rw [bne_iff_ne]
    intro heq
    apply h p hp
    rw [← heq, String.toUpper, String.toList_map]
  rw [ofText, hnone, Option.getD_none]

theorem ofText_foreign {s : String} {c : Char} {cs : List Char} (hs : s.toList = c :: cs)
    (h : Foreign c) : ofText s = .unrecognized s := by
  obtain ⟨rest, hrest⟩ := Text.trim_toList h.1 hs
  refine ofText_of_no_spelling fun p hp heq => ?_
  rw [hrest, List.map_cons] at heq
  exact h.2 p hp (by rw [heq]; rfl)

theorem ofText_null : ofText "null" = .unrecognized "null" := by
  apply ofText_of_no_spelling
  rw [Text.trim, String.toList_ofList]
  decide

/-- A number has a text that starts with a minus or a digit, if it has one at all. -/
theorem number_text_foreign (n : Json.Number) :
    n.text = "null" ∨ ∃ c cs, n.text.toList = c :: cs ∧ Foreign c := by
  cases n with
  | int n =>
    cases n with
    | ofNat n =>
      obtain ⟨d, ds, hcons, hd⟩ := Double.toDigits_startsWithDigit n
      refine .inr ⟨d, ds, ?_, foreign_of_digit hd⟩
      show (toString n).toList = d :: ds
      rw [Nat.toString_eq_repr, Nat.toList_repr, hcons]
    | negSucc n =>
      refine .inr ⟨'-', (toString (n + 1)).toList, ?_, by decide⟩
      show ("-" ++ toString (n + 1)).toList = _
      rw [String.toList_append]
      rfl
  | float x =>
    cases x with
    | finite negative m e =>
      obtain ⟨c, cs, hcons, hc⟩ := Double.finiteText_start .json negative m e
      refine .inr ⟨c, cs, hcons, ?_⟩
      rcases hc with rfl | hc
      · decide
      · exact foreign_of_digit hc
    | infinite negative => exact .inl rfl
    | nan => exact .inl rfl

/-- A value that is not a string has the text of null or one that starts as no spelling does. -/
theorem json_text_foreign {v : Json} (h : ∀ s, v ≠ .string s) :
    v.text = "null" ∨ ∃ c cs, v.text.toList = c :: cs ∧ Foreign c := by
  cases v with
  | null => exact .inl rfl
  | bool b =>
    cases b with
    | false => exact .inr ⟨'f', _, rfl, by decide⟩
    | true => exact .inr ⟨'t', _, rfl, by decide⟩
  | number n =>
    rw [Json.text]
    exact number_text_foreign n
  | string s => exact absurd rfl (h s)
  | array items =>
    refine .inr ⟨'[', (Json.itemsText items ++ "]").toList, ?_, by decide⟩
    rw [Json.text, String.append_assoc, String.toList_append]
    rfl
  | object fields =>
    refine .inr ⟨'\x7b', (Json.fieldsText fields ++ "\x7d").toList, ?_, by decide⟩
    rw [Json.text, String.append_assoc, String.toList_append]
    rfl

/-! ### Reading again -/

theorem ofText_spelling : ∀ p ∈ spellings, ofText p.2.text = p.2 := by decide +kernel

theorem ofText_ofText_text (token : String) : ofText (ofText token).text = ofText token := by
  cases h : spellings.lookup (Text.trim token).toUpper with
  | none =>
    have hunrecognized : ofText token = .unrecognized token := by rw [ofText, h, Option.getD_none]
    rw [hunrecognized]
    exact hunrecognized
  | some op =>
    have hop : ofText token = op := by rw [ofText, h, Option.getD_some]
    obtain ⟨before, after, hsplit, -⟩ := List.lookup_eq_some_iff.mp h
    rw [hop]
    exact ofText_spelling (_, op) (hsplit ▸ List.mem_append_right before List.mem_cons_self)

theorem ofText_ofJson_text (v : Json) : ofText (ofJson v).text = ofJson v := by
  by_cases hstring : ∃ s, v = .string s
  · obtain ⟨s, rfl⟩ := hstring
    exact ofText_ofText_text s
  · have hv : ofJson v = .unrecognized v.text := by
      rw [ofJson]
      exact fun s hs => hstring ⟨s, hs⟩
    rw [hv]
    rcases json_text_foreign fun s hs => hstring ⟨s, hs⟩ with hnull | ⟨c, cs, hcons, hc⟩
    · rw [hnull]
      exact ofText_null
    · exact ofText_foreign hcons hc

/-- An operator that reading gave is read again from its text. -/
theorem Obtained.ofText_text {op : Operator} (h : op.Obtained) : ofText op.text = op := by
  cases h with
  | parsed token => exact ofText_ofText_text token
  | @decoded src d _ h =>
    cases hvalue : Decode.json src d with
    | error f =>
      rw [decode, hvalue] at h
      cases h
    | ok v =>
      rw [decode, hvalue] at h
      cases h
      exact ofText_ofJson_text v

end Operator

end BucketQuery.Filter
