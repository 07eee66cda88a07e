import BucketQuery.Proofs.Double.Layout
import BucketQuery.Proofs.Json.Text

/-! JSON text without controls.

Blank space is not written, and strings escape controls by short names or by number, so the text of a value
has no character below the blank, whatever strings and names the value holds (`text_shown`). In particular
it is on one line. -/
namespace BucketQuery.Json

/-- No control of the first block, which tabs and line ends belong to. -/
def shown (c : Char) : Bool := 0x20 ≤ c.toNat

theorem shown_digit (c : Char) (h : c.isDigit = true) : shown c = true := by
  have hlow : 48 ≤ c.toNat := (Char.isDigit_iff_toNat.mp h).1
  exact decide_eq_true (Nat.le_trans (by decide) hlow)

theorem escape_shown (c : Char) : (escape c).all shown = true := by
  have hdigit : ∀ k < 16, shown (Nat.digitChar k) = true := by decide
  unfold escape
  split
  case h_8 =>
    split
    · rename_i hlow
      have hhigh := hdigit (c.toNat / 16) (by omega)
      have hunits := hdigit (c.toNat % 16) (Nat.mod_lt _ (by decide))
      simpa [shown] using And.intro hhigh hunits
    · rename_i hlow
      simpa [shown] using hlow
  all_goals decide

theorem escaped_shown (s : List Char) : (s.flatMap escape).all shown = true := by
  rw [List.all_flatMap, List.all_eq_true]
  exact fun c _ => escape_shown c

theorem number_shown (n : Number) : n.text.toList.all shown = true := by
  cases n with
  | int n =>
    have hsign : (intNumeral n).signChars.all shown = true := by
      unfold Reading.Numeral.signChars
      split
      · decide
      · decide
    have hdigits : (Nat.toDigits 10 n.natAbs).all shown = true :=
      List.all_eq_true.mpr (Double.digits_forall shown_digit (Double.toDigits_all n.natAbs))
    have hchars : (intNumeral n).chars = (intNumeral n).signChars ++ (Nat.toDigits 10 n.natAbs ++ []) := rfl
    rw [← intNumeral_chars, hchars, List.append_nil, List.all_append, hsign, hdigits]
    rfl
  | float x =>
    cases x with
    | finite negative m e =>
      have hmarks : ∀ c ∈ ['-', '+', '.', 'e'], shown c = true := List.all_eq_true.mp (by decide)
      exact List.all_eq_true.mpr (Double.finiteText_forall shown_digit hmarks _ _ _ _)
    | infinite negative =>
      show "null".toList.all shown = true
      decide
    | nan =>
      show "null".toList.all shown = true
      decide

/-- Text between two marks, such as brackets or quotes. -/
theorem enclosed_shown {front back : Char} (hfront : shown front = true) (hback : shown back = true)
    {cs : List Char} (h : cs.all shown = true) : (front :: (cs ++ [back])).all shown = true := by
  rw [List.all_cons, List.all_append, hfront, h, List.all_cons, hback]
  rfl

/-- A name and its value. -/
theorem field_shown (name : String) {value : List Char} (h : value.all shown = true) :
    ('"' :: (name.toList.flatMap escape ++ '"' :: ':' :: value)).all shown = true := by
  have hmarks : shown '"' = true ∧ shown ':' = true := by decide
  simp only [List.all_cons, List.all_append, escaped_shown, hmarks, h, Bool.and_self]

mutual

/-- **No control is written.** -/
theorem text_shown : (v : Json) → v.text.toList.all shown = true
  | .null => by
    rw [text]
    decide
  | .bool b => by
    cases b <;> rw [text] <;> decide
  | .number n => by
    rw [text]
    exact number_shown n
  | .string s => by
    rw [text, stringText_toList]
    exact enclosed_shown (by decide) (by decide) (escaped_shown s.toList)
  | .array items => by
    rw [array_text]
    exact enclosed_shown (by decide) (by decide) (itemsText_shown items)
  | .object fields => by
    rw [object_text]
    exact enclosed_shown (by decide) (by decide) (fieldsText_shown fields)

theorem itemsText_shown : (items : List Json) → (itemsText items).toList.all shown = true
  | [] => by
    rw [itemsText]
    decide
  | [v] => by
    rw [itemsText]
    exact text_shown v
  | v :: w :: items => by
    have hcomma : shown ',' = true := by decide
    rw [itemsText_cons, List.all_append, text_shown v, List.all_cons, hcomma, itemsText_shown (w :: items)]
    rfl

theorem fieldsText_shown : (fields : List (String × Json)) → (fieldsText fields).toList.all shown = true
  | [] => by
    rw [fieldsText]
    decide
  | [(n, v)] => by
    rw [fieldsText_one]
    exact field_shown n (text_shown v)
  | (n, v) :: f :: fields => by
    have hcomma : shown ',' = true := by decide
    rw [fieldsText_cons]
    refine field_shown n ?_
    rw [List.all_append, text_shown v, List.all_cons, hcomma, fieldsText_shown (f :: fields)]
    rfl

end

end BucketQuery.Json
