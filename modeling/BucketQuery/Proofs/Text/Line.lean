import BucketQuery.Proofs.Text.Blank
import BucketQuery.Text.Quoted

/-! Texts on one line.

Whatever a line break is taken for, quoted text has none: all of them are hidden characters, which are
written by their numbers (`quoted_unbroken`). -/
namespace BucketQuery.Text

/-- The line feed, the vertical tab, the form feed, the carriage return, the next line, and the separators
of lines and paragraphs. -/
def isLineBreak (c : Char) : Bool :=
  let n := c.toNat
  (0xa ≤ n && n ≤ 0xd) || n == 0x85 || n == 0x2028 || n == 0x2029

/-- There is no line break in the text. -/
def unbroken (s : String) : Bool := s.toList.all (!isLineBreak ·)

theorem append_unbroken {s t : String} (hs : unbroken s = true) (ht : unbroken t = true) :
    unbroken (s ++ t) = true := by
  rw [unbroken] at hs ht ⊢
  rw [String.toList_append, List.all_append, hs, ht]
  rfl

theorem unbroken_iff {s : String} : unbroken s = true ↔ ∀ c ∈ s.toList, isLineBreak c = false := by
  simp [unbroken]

/-- A line break is blank space. -/
theorem not_lineBreak {c : Char} (h : isBlank c = false) : isLineBreak c = false := by
  simp only [isBlank, isLineBreak, Bool.or_eq_false_iff, Bool.and_eq_false_iff,
    decide_eq_false_iff_not, beq_eq_false_iff_ne] at h ⊢
  omega

theorem not_lineBreak_of_digit (c : Char) (h : c.isDigit = true) : isLineBreak c = false :=
  not_lineBreak (not_blank_of_digit h)

theorem hidden_of_lineBreak {c : Char} (h : isLineBreak c = true) : isHidden c = true := by
  simp only [isLineBreak, Bool.or_eq_true, Bool.and_eq_true, decide_eq_true_eq, beq_iff_eq] at h
  unfold isHidden
  by_cases hlow : c.toNat < 0x20
  · rw [if_pos (by omega)]
    simp [hlow]
  · have hhigh : c.toNat = 0x85 ∨ c.toNat = 0x2028 ∨ c.toNat = 0x2029 := by omega
    rcases hhigh with hn | hn | hn
    · rw [hn]
      decide
    · rw [hn]
      decide +kernel
    · rw [hn]
      decide +kernel

theorem hexDigits_unbroken (n : Nat) : (Quoted.hexDigits n).all (!isLineBreak ·) = true := by
  have hdigit : ∀ k < 16, isLineBreak (Nat.digitChar k) = false := by decide
  induction n using Nat.strongRecOn with
  | ind n ih =>
    rw [Quoted.hexDigits]
    by_cases hn : n < 16
    · simp [Nat.toDigits_of_lt_base hn, hdigit n hn]
    · have hrest : (Nat.toDigits 16 (n / 16)).all (!isLineBreak ·) = true := ih (n / 16) (by omega)
      have hlast := hdigit (n % 16) (Nat.mod_lt _ (by decide))
      rw [Nat.toDigits_of_base_le (by decide) (Nat.le_of_not_lt hn), List.all_append, hrest]
      simp [hlast]

theorem escape_unbroken (c : Char) : (Quoted.escape c).all (!isLineBreak ·) = true := by
  unfold Quoted.escape
  split
  case h_7 =>
    split
    · rw [List.all_append, List.all_append, hexDigits_unbroken]
      decide
    · rename_i hshown
      have hc : isLineBreak c = false := by
        rw [Bool.eq_false_iff]
        exact fun h => hshown (hidden_of_lineBreak h)
      simp [hc]
  all_goals decide

/-- **Quoted text is one line.** -/
theorem quoted_unbroken (s : String) : unbroken (quoted s) = true := by
  have hquote : isLineBreak '"' = false := by decide
  have hescaped : (s.toList.flatMap Quoted.escape).all (!isLineBreak ·) = true := by
    rw [List.all_flatMap, List.all_eq_true]
    exact fun c _ => escape_unbroken c
  rw [unbroken, quoted, String.toList_ofList, List.all_cons, List.all_append, hescaped]
  simp [hquote]

end BucketQuery.Text
