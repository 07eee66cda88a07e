import BucketQuery.Proofs.Double.Shortest
import BucketQuery.Sql.Dialect
import BucketQuery.Sql.Identifier

/-! What values stand for, and their literals without quotes.

A warehouse compares nulls, numbers and texts. Truth values are numbers, timestamps are their text,
and a binary64 number is the decimal that its literal shows. `numeral?` reads a word as a number
and knows nothing of how numbers are written; `literal_spells` says that a literal without quotes
is NULL, or a numeral of the number with a minus sign in front where it needs one.

A placeholder stands for what the literal of its value stands for (`Value.operand`), so a statement has one
meaning in either mode, whatever a driver makes of a parameter. The number that a driver is handed is
`Value.rational?`. Only for a binary64 number is it another one, no further away than half the last place of
that (`Value.operand_near`). It has a part where the parameters themselves are spoken of, and in no meaning of
a text. -/
namespace BucketQuery.Sql

/-- An unsigned number: digits with at most one point among them, and an exponent, if any. -/
def numeral? (cs : List Char) : Option Rat :=
  let (whole, rest) := Double.spanDigits cs
  let (part, rest) := match rest with
    | '.' :: rest => Double.spanDigits rest
    | rest => ([], rest)
  if whole.isEmpty && part.isEmpty then none
  else
    let number (e : Int) : Rat := Double.digitsValue (whole ++ part) * 10 ^ (e - part.length)
    match rest with
    | [] => some (number 0)
    | c :: rest => if c == 'e' || c == 'E' then (Double.exponent? rest).map number else none

/-- Digits around a point are a numeral. -/
theorem numeral_of_digits {whole part : List Char} (hne : whole ≠ [])
    (hw : whole.all Char.isDigit = true) (hp : part.all Char.isDigit = true) :
    numeral? (whole ++ Double.behindPoint part) =
      some ((Double.digitsValue (whole ++ part) : Rat) * 10 ^ (-part.length : Int)) := by
  have hempty : whole.isEmpty = false := by simpa using hne
  unfold Double.behindPoint
  cases part with
  | nil =>
    have hspan := Double.spanDigits_append [] hw rfl
    rw [List.isEmpty_nil, if_pos rfl]
    simp only [numeral?, hspan, hempty]
    simp
  | cons c part =>
    have hspan := Double.spanDigits_append ('.' :: c :: part) hw rfl
    have hpart := Double.spanDigits_append [] hp rfl
    rw [List.append_nil] at hpart
    rw [List.isEmpty_cons, if_neg Bool.false_ne_true]
    simp only [numeral?, hspan, hpart, hempty]
    simp

/-! ### Values -/

/-- What a warehouse compares. -/
inductive Operand where
  | null
  | number (x : Rat)
  | text (s : String)
deriving DecidableEq

/-- The number `digits * 10 ^ exponent`. -/
def decimalValue (d : Double.Decimal) : Rat := d.digits * 10 ^ d.exponent

def signed (negative : Bool) (x : Rat) : Rat := if negative then -x else x

namespace Value

/-- What a value stands for, as a literal and as a placeholder. -/
def operand : Value → Operand
  | .null => .null
  | .bool b => .number (if b then 1 else 0)
  | .int n => .number n
  | .float (.finite negative m e) => .number (signed negative (decimalValue (Double.literalDecimal m e)))
  | .float _ => .null
  | .text s => .text s
  | .timestamp t => .text t.text

/-- The number that a value is exactly, as a driver is handed it. -/
def rational? : Value → Option Rat
  | .int n => some n
  | .float x => x.rational?
  | _ => none

/-- The text that a value puts between quotes. -/
def content? : Value → Option String
  | .text s => some s
  | .timestamp t => some t.text
  | _ => none

theorem operand_of_content {v : Value} {s : String} (h : v.content? = some s) :
    v.operand = .text s := by
  cases v with
  | text s =>
    cases h
    rfl
  | timestamp t =>
    cases h
    rfl
  | _ => cases h

theorem signed_sub (negative : Bool) (x y : Rat) : |signed negative x - signed negative y| = |x - y| := by
  cases negative with
  | false => rfl
  | true =>
    show |-x - -y| = |x - y|
    rw [neg_sub_neg, abs_sub_comm]

/-- What a binary64 number stands for is no further from it than half its last place. -/
theorem operand_near {negative : Bool} {m : Nat} {e : Int} (h : (Double.finite negative m e).Held) :
    ∃ shown exact : Rat, (Value.float (.finite negative m e)).operand = .number shown ∧
      (Value.float (.finite negative m e)).rational? = some exact ∧ |shown - exact| ≤ 2 ^ (e - 1) := by
  have hexact : (Value.float (.finite negative m e)).rational? = some (signed negative (m * 2 ^ e)) := by
    show some _ = some _
    cases negative <;> simp [signed]
  refine ⟨_, _, rfl, hexact, ?_⟩
  rw [signed_sub, decimalValue, Double.literalDecimal]
  split_ifs with hm
  · subst hm
    have hzero : (((0 : Nat) : Rat) * 10 ^ (0 : Int) - ((0 : Nat) : Rat) * 2 ^ e) = 0 := by simp
    rw [hzero, abs_zero]
    positivity
  · exact (Double.shortest_spec .up (Nat.pos_of_ne_zero hm) h).2

end Value

/-! ### Literals without quotes -/

theorem identifierChar_of_isDigit {c : Char} (h : c.isDigit = true) : isIdentifierChar c = true := by
  simp [isIdentifierChar, Char.isAlphanum, h]

theorem identifierChars_of_digits {cs : List Char} (h : cs.all Char.isDigit = true) :
    cs.all isIdentifierChar = true := by
  rw [List.all_eq_true] at h ⊢
  exact fun c hc => identifierChar_of_isDigit (h c hc)

/-- A word that starts with a digit and is a number. -/
structure Numeral (body : List Char) (x : Rat) : Prop where
  chars : body.all isIdentifierChar = true
  leads : ∃ c rest, body = c :: rest ∧ c.isDigit = true
  value : numeral? body = some x

theorem numeral_around {whole part : List Char} (hne : whole ≠ [])
    (hw : whole.all Char.isDigit = true) (hp : part.all Char.isDigit = true) :
    Numeral (whole ++ Double.behindPoint part)
      ((Double.digitsValue (whole ++ part) : Rat) * 10 ^ (-part.length : Int)) where
  chars := by
    have hpoint : (Double.behindPoint part).all isIdentifierChar = true := by
      unfold Double.behindPoint
      split
      · rfl
      · rw [List.all_cons, identifierChars_of_digits hp]
        rfl
    rw [List.all_append, identifierChars_of_digits hw, hpoint, Bool.and_self]
  leads := by
    cases whole with
    | nil => exact absurd rfl hne
    | cons c rest =>
      rw [List.all_cons, Bool.and_eq_true] at hw
      exact ⟨c, rest ++ Double.behindPoint part, rfl, hw.1⟩
  value := numeral_of_digits hne hw hp

theorem toDigits_numeral (n : Nat) : Numeral (Nat.toDigits 10 n) n := by
  have h : Numeral (Nat.toDigits 10 n ++ Double.behindPoint []) _ :=
    numeral_around Nat.toDigits_ne_nil (Double.toDigits_all n) rfl
  simpa [Double.behindPoint, Double.digitsValue_toDigits] using h

/-- What `Reads` says of digits, as a number. -/
theorem decimalValue_of_reads {d : Double.Decimal} {whole part : List Char}
    (h : Double.Reads d.digits d.exponent whole part) :
    (Double.digitsValue (whole ++ part) : Rat) * 10 ^ (-part.length : Int) = decimalValue d := by
  unfold Double.Reads at h
  split at h
  · rename_i he
    obtain ⟨rfl, hv⟩ := h
    obtain ⟨k, hk⟩ := Int.eq_ofNat_of_zero_le he
    rw [hk, Int.toNat_natCast] at hv
    rw [List.append_nil, hv, decimalValue, hk]
    simp
  · rename_i he
    have hexp : (-(part.length : Int)) = d.exponent := by omega
    rw [h.2, hexp, decimalValue]

theorem magnitude_numeral (m : Nat) (e : Int) :
    Numeral (Double.magnitude .literal m e) (decimalValue (Double.literalDecimal m e)) := by
  obtain ⟨whole, part, haround, hreads⟩ := Double.magnitude_reads m e
  rw [haround.text_eq, ← decimalValue_of_reads hreads]
  exact numeral_around haround.whole_ne haround.whole_digits haround.part_digits

/-- A literal without quotes is NULL or a numeral, with its sign. -/
theorem literal_spells (d : Dialect) {v : Value} (h : v.content? = none) :
    (d.literal v = "NULL" ∧ v.operand = .null) ∨
      ∃ negative body x, (d.literal v).toList = (if negative then ['-'] else []) ++ body ∧
        Numeral body x ∧ v.operand = .number (signed negative x) := by
  cases v with
  | null => exact .inl ⟨rfl, rfl⟩
  | bool b =>
    refine .inr ⟨false, _, _, ?_, toDigits_numeral b.toNat, ?_⟩
    · cases b
      · show "0".toList = _
        decide
      · show "1".toList = _
        decide
    · cases b
      · rfl
      · rfl
  | int n =>
    cases n with
    | ofNat n =>
      refine .inr ⟨false, _, _, ?_, toDigits_numeral n, rfl⟩
      simp [Dialect.literal, Int.repr]
    | negSucc n =>
      refine .inr ⟨true, _, _, ?_, toDigits_numeral (n + 1), ?_⟩
      · simp [Dialect.literal, Int.repr]
      · simp [Value.operand, signed, Int.negSucc_eq]
  | float x =>
    cases x with
    | finite negative m e =>
      refine .inr ⟨negative, _, _, ?_, magnitude_numeral m e, rfl⟩
      simp [Dialect.literal, Double.literal?, Double.finiteText]
    | infinite negative => exact .inl ⟨rfl, rfl⟩
    | nan => exact .inl ⟨rfl, rfl⟩
  | text s => cases h
  | timestamp t => cases h

/-- A sign is no part of a numeral, so a text is one in one way. -/
theorem signed_numeral_unique {negative negative' : Bool} {body body' : List Char} {x x' : Rat}
    (h : Numeral body x) (h' : Numeral body' x')
    (htext : (if negative then ['-'] else []) ++ body = (if negative' then ['-'] else []) ++ body') :
    signed negative x = signed negative' x' := by
  obtain ⟨c, rest, hbody, hc⟩ := h.leads
  obtain ⟨c', rest', hbody', hc'⟩ := h'.leads
  have hsigns : negative = negative' := by
    rw [hbody, hbody'] at htext
    cases negative with
    | false =>
      cases negative' with
      | false => rfl
      | true =>
        obtain ⟨rfl, _⟩ := List.cons.inj htext
        exact absurd hc (by decide)
    | true =>
      cases negative' with
      | true => rfl
      | false =>
        obtain ⟨rfl, _⟩ := List.cons.inj htext
        exact absurd hc' (by decide)
  subst hsigns
  obtain rfl := List.append_cancel_left htext
  rw [Option.some.inj (h.value.symm.trans h'.value)]

theorem null_not_signed {negative : Bool} {body : List Char} {x : Rat} (h : Numeral body x) :
    "NULL".toList ≠ (if negative then ['-'] else []) ++ body := by
  obtain ⟨c, rest, rfl, hc⟩ := h.leads
  cases negative with
  | false =>
    rintro ⟨⟩
    exact absurd hc (by decide)
  | true => exact fun heq => absurd (List.cons.inj heq).1 (by decide)

/-- Values with one literal, of those without quotes, stand for the same. -/
theorem operand_eq_of_literal {d : Dialect} {v w : Value} (hv : v.content? = none) (hw : w.content? = none)
    (h : d.literal v = d.literal w) : v.operand = w.operand := by
  rcases literal_spells d hv with ⟨hnull, hov⟩ | ⟨negative, body, x, htext, hbody, hov⟩
  · rcases literal_spells d hw with ⟨_, how⟩ | ⟨negative', body', x', htext', hbody', _⟩
    · rw [hov, how]
    · rw [← h, hnull] at htext'
      exact absurd htext' (null_not_signed hbody')
  · rcases literal_spells d hw with ⟨hnull, _⟩ | ⟨negative', body', x', htext', hbody', how⟩
    · rw [h, hnull] at htext
      exact absurd htext (null_not_signed hbody)
    · rw [hov, how, signed_numeral_unique hbody hbody' (htext.symm.trans (h ▸ htext'))]

end BucketQuery.Sql
