import BucketQuery.Proofs.Json.Number

/-! Strings and containers, read one step at a time.

A string is read back character by character (`stringAt_text`). A container is read as what its first item or
field is and as what the rest is. -/
namespace BucketQuery.Json

open Reading

/-! ### Strings -/

/-- A character is written by its short escape, by its number, or as it is. -/
theorem escape_cases (c : Char) :
    (∃ e, e ≠ 'u' ∧ short? e = some c ∧ escape c = ['\\', e]) ∨
      (c.toNat < 0x20 ∧
        escape c = ['\\', 'u', '0', '0', Nat.digitChar (c.toNat / 16), Nat.digitChar (c.toNat % 16)]) ∨
      (c ≠ '"' ∧ c ≠ '\\' ∧ 0x20 ≤ c.toNat ∧ escape c = [c]) := by
  unfold escape
  split
  · exact .inl ⟨'"', by decide, rfl, rfl⟩
  · exact .inl ⟨'\\', by decide, rfl, rfl⟩
  · exact .inl ⟨'b', by decide, rfl, rfl⟩
  · exact .inl ⟨'t', by decide, rfl, rfl⟩
  · exact .inl ⟨'n', by decide, rfl, rfl⟩
  · exact .inl ⟨'f', by decide, rfl, rfl⟩
  · exact .inl ⟨'r', by decide, rfl, rfl⟩
  · rename_i hquote hslash _ _ _ _ _
    by_cases hcontrol : c.toNat < 0x20
    · exact .inr (.inl ⟨hcontrol, if_pos hcontrol⟩)
    · exact .inr (.inr ⟨hquote, hslash, Nat.le_of_not_lt hcontrol, if_neg hcontrol⟩)

theorem unit?_control {n : Nat} (h : n < 0x20) :
    unit? '0' '0' (Nat.digitChar (n / 16)) (Nat.digitChar (n % 16)) = some n := by
  revert n
  decide

theorem escape_control_append (a b : Char) (rest : List Char) :
    ['\\', 'u', '0', '0', a, b] ++ rest = '\\' :: 'u' :: '0' :: '0' :: a :: b :: rest := rfl

theorem skipString_escape (c : Char) (rest : List Char) : skipString (escape c ++ rest) = skipString rest := by
  obtain ⟨e, hu, hshort, h⟩ | ⟨hcontrol, h⟩ | ⟨hquote, hslash, hcontrol, h⟩ := escape_cases c
  · rw [h, List.cons_append, List.cons_append, List.nil_append, skipString, hshort]
    · rfl
    all_goals
      intros
      contradiction
  · rw [h, escape_control_append, skipString, unit?_control hcontrol]
    rfl
  · rw [h, List.cons_append, List.nil_append, skipString, if_neg (Nat.not_lt.mpr hcontrol)]
    all_goals
      intros
      contradiction

theorem stringChars_escape (c : Char) {rest s : List Char} (hrest : stringChars rest = .ok s) :
    stringChars (escape c ++ rest) = .ok (c :: s) := by
  obtain ⟨e, hu, hshort, h⟩ | ⟨hcontrol, h⟩ | ⟨hquote, hslash, hcontrol, h⟩ := escape_cases c
  · rw [h, List.cons_append, List.cons_append, List.nil_append, stringChars, hshort]
    · dsimp only
      rw [hrest]
      rfl
    all_goals
      intros
      contradiction
  · have hlow : isLow c.toNat = false := by
      rw [isLow, Bool.and_eq_false_iff, decide_eq_false_iff_not]
      exact .inl (by omega)
    have hhigh : isHigh c.toNat = false := by
      rw [isHigh, Bool.and_eq_false_iff, decide_eq_false_iff_not]
      exact .inl (by omega)
    rw [h, escape_control_append, stringChars, unit?_control hcontrol]
    dsimp only
    rw [hlow, hhigh, hrest, Char.ofNat_toNat]
    rfl
  · rw [h, List.cons_append, List.nil_append, stringChars, if_neg (Nat.not_lt.mpr hcontrol), hrest]
    · rfl
    all_goals
      intros
      contradiction

/-- **A string is read back.** -/
theorem stringAt_text (s : String) (rest : List Char) :
    stringAt (s.toList.flatMap escape ++ '"' :: rest) = (.string s, some rest) := by
  have hread : ∀ cs : List Char, stringChars (cs.flatMap escape ++ '"' :: rest) = .ok cs ∧
      skipString (cs.flatMap escape ++ '"' :: rest) = .ok rest := by
    intro cs
    induction cs with
    | nil => exact ⟨rfl, rfl⟩
    | cons c cs ih =>
      rw [List.flatMap_cons, List.append_assoc]
      exact ⟨stringChars_escape c ih.1, (skipString_escape c _).trans ih.2⟩
  rw [stringAt, (hread s.toList).1, (hread s.toList).2]
  dsimp only
  rw [String.ofList_toList]

/-! ### Containers, one step at a time -/

section Steps
variable {depth fuel : Nat}

theorem skipSpace_cons {c : Char} (h : isSpace c = false) (cs : List Char) : skipSpace (c :: cs) = c :: cs := by
  rw [skipSpace, List.dropWhile_cons_of_neg (by rw [h]; exact Bool.false_ne_true)]

theorem valueAt_items {c : Char} (hspace : isSpace c = false) (hclose : c ≠ ']') (cs : List Char) :
    valueAt depth (fuel + 1) ('[' :: c :: cs) = atDepth depth
      (.sequence (itemsAt (depth + 1) fuel (c :: cs)).1 (itemsAt (depth + 1) fuel (c :: cs)).2.1,
        (itemsAt (depth + 1) fuel (c :: cs)).2.2) := by
  have hopen := skipSpace_cons (c := '[') (by decide) (c :: cs)
  have hnext := skipSpace_cons hspace cs
  rw [valueAt.eq_def]
  simp only [hopen, hnext]
  split
  · rename_i h
    cases h
    exact absurd rfl hclose
  · rename_i h
    cases h
  · rfl

theorem valueAt_fields (cs : List Char) :
    valueAt depth (fuel + 1) ('\x7b' :: '"' :: cs) = atDepth depth
      (.mapping (fieldsAt (depth + 1) fuel ('"' :: cs)).1 (fieldsAt (depth + 1) fuel ('"' :: cs)).2.1,
        (fieldsAt (depth + 1) fuel ('"' :: cs)).2.2) := rfl

theorem itemsAt_last {cs rest : List Char} {item : Document}
    (h : valueAt depth fuel cs = (item, some (']' :: rest))) :
    itemsAt depth (fuel + 1) cs = ([item], none, some rest) := by
  rw [itemsAt, h]
  rfl

theorem itemsAt_next {cs rest : List Char} {item : Document}
    (h : valueAt depth fuel cs = (item, some (',' :: rest))) :
    itemsAt depth (fuel + 1) cs = (item :: (itemsAt depth fuel rest).1, (itemsAt depth fuel rest).2) := by
  rw [itemsAt, h]
  rfl

section Fields
variable {cs behind rest : List Char} {name : String} {value : Document}
  (hname : stringAt cs = (.string name, some (':' :: behind)))
include hname

theorem fieldsAt_last (h : valueAt depth fuel behind = (value, some ('\x7d' :: rest))) :
    fieldsAt depth (fuel + 1) ('"' :: cs) = ([(name, value)], none, some rest) := by
  have hopen := skipSpace_cons (c := '"') (by decide) cs
  have hcolon := skipSpace_cons (c := ':') (by decide) behind
  have hclose := skipSpace_cons (c := '\x7d') (by decide) rest
  rw [fieldsAt.eq_def]
  simp only [hopen, hname, Option.getD_some, hcolon, h, hclose]

theorem fieldsAt_next (h : valueAt depth fuel behind = (value, some (',' :: rest))) :
    fieldsAt depth (fuel + 1) ('"' :: cs) =
      ((name, value) :: (fieldsAt depth fuel rest).1, (fieldsAt depth fuel rest).2) := by
  have hopen := skipSpace_cons (c := '"') (by decide) cs
  have hcolon := skipSpace_cons (c := ':') (by decide) behind
  have hcomma := skipSpace_cons (c := ',') (by decide) rest
  rw [fieldsAt.eq_def]
  simp only [hopen, hname, Option.getD_some, hcolon, h, hcomma]

end Fields

end Steps

end BucketQuery.Json
