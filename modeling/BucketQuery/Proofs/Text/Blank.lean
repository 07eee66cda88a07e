import BucketQuery.Text.Blank
import Mathlib.Data.List.DropRight

/-! Trimming and digits.

A character that is not blank is not taken off, and neither is what lies behind it on its side: a text
that starts with one still starts with it once trimmed (`trim_toList`), and a text that also ends with
one is left as it is (`trim_eq_self`). A digit is such a character, and has one case only. -/
namespace BucketQuery.Text

/-- The printed characters of ASCII are not blank. -/
theorem not_blank {c : Char} (h : 0x20 < c.toNat ∧ c.toNat < 0x7f) : isBlank c = false := by
  simp only [isBlank, Bool.or_eq_false_iff, Bool.and_eq_false_iff, decide_eq_false_iff_not,
    beq_eq_false_iff_ne]
  omega

section Digit
variable {c : Char} (h : c.isDigit = true)
include h

theorem not_blank_of_digit : isBlank c = false := by
  have hlow : 48 ≤ c.toNat := (Char.isDigit_iff_toNat.mp h).1
  have hhigh : c.toNat ≤ 57 := (Char.isDigit_iff_toNat.mp h).2
  exact not_blank (by omega)

theorem toUpper_of_digit : c.toUpper = c := by
  have hhigh : c.toNat ≤ 57 := (Char.isDigit_iff_toNat.mp h).2
  delta Char.toUpper
  rw [dif_neg]
  show ¬ (97 ≤ c.toNat ∧ _)
  omega

end Digit

theorem trimEnd_eq (cs : List Char) : trimEnd cs = cs.rdropWhile isBlank := rfl

section Kept
variable {c : Char} (h : isBlank c = false)
include h

theorem trimStart_cons (cs : List Char) : trimStart (c :: cs) = c :: cs :=
  List.dropWhile_cons_of_neg (Bool.eq_false_iff.mp h)

theorem trimEnd_cons (cs : List Char) : ∃ rest, trimEnd (c :: cs) = c :: rest := by
  have hprefix : trimEnd (c :: cs) <+: c :: cs := List.rdropWhile_prefix isBlank _
  cases htrim : trimEnd (c :: cs) with
  | nil =>
    rw [trimEnd_eq, List.rdropWhile_eq_nil_iff] at htrim
    exact absurd (htrim c List.mem_cons_self) (Bool.eq_false_iff.mp h)
  | cons d rest =>
    rw [htrim, List.cons_prefix_cons] at hprefix
    exact ⟨rest, hprefix.1 ▸ rfl⟩

/-- What starts without blank space starts the same once trimmed. -/
theorem trim_toList {s : String} {cs : List Char} (hs : s.toList = c :: cs) :
    ∃ rest, (trim s).toList = c :: rest := by
  rw [trim, String.toList_ofList, hs, trimStart_cons h]
  exact trimEnd_cons h cs

end Kept

/-- What neither starts nor ends with blank space is trimmed already. -/
theorem trim_eq_self {cs : List Char} (hstart : ∀ c ∈ cs.head?, isBlank c = false)
    (hend : ∀ c ∈ cs.getLast?, isBlank c = false) : trim (String.ofList cs) = String.ofList cs := by
  have htrimStart : trimStart cs = cs := by
    cases cs with
    | nil => rfl
    | cons c cs => exact trimStart_cons (hstart c rfl) cs
  have htrimEnd : trimEnd cs = cs := by
    rw [trimEnd_eq, List.rdropWhile_eq_self_iff]
    intro hne
    exact Bool.eq_false_iff.mp (hend _ (List.getLast?_eq_some_getLast hne))
  rw [trim, String.toList_ofList, htrimStart, htrimEnd]

/-- The same of a text whose first and last characters are known. -/
theorem trim_of_ends {cs : List Char} (hstart : ∃ c rest, cs = c :: rest ∧ isBlank c = false)
    (hend : ∃ front d, cs = front ++ [d] ∧ isBlank d = false) :
    trim (String.ofList cs) = String.ofList cs := by
  obtain ⟨c, rest, hcons, hc⟩ := hstart
  obtain ⟨front, d, hconcat, hd⟩ := hend
  refine trim_eq_self (fun a ha => ?_) fun a ha => ?_
  · rw [hcons] at ha
    exact Option.some.inj ha ▸ hc
  · rw [hconcat, List.getLast?_concat] at ha
    exact Option.some.inj ha ▸ hd

theorem trimStart_start (cs : List Char) : ∀ c ∈ (trimStart cs).head?, isBlank c = false := by
  intro c hc
  have hstart := List.head?_dropWhile_not isBlank cs
  rw [Option.mem_def, trimStart] at hc
  rw [hc] at hstart
  exact hstart

theorem blank_or_mem_dropWhile {c : Char} {cs : List Char} (h : c ∈ cs) :
    isBlank c = true ∨ c ∈ cs.dropWhile isBlank := by
  rw [← List.takeWhile_append_dropWhile (p := isBlank) (l := cs), List.mem_append] at h
  exact h.imp_left List.mem_takeWhile_imp

/-- Only blank space is taken off. -/
theorem blank_or_mem_trim {c : Char} {s : String} (h : c ∈ s.toList) :
    isBlank c = true ∨ c ∈ (trim s).toList := by
  rcases blank_or_mem_dropWhile h with hblank | hleft
  · exact .inl hblank
  · have hreversed : c ∈ (trimStart s.toList).reverse := List.mem_reverse.mpr hleft
    rw [trim, String.toList_ofList, trimEnd, List.mem_reverse]
    exact blank_or_mem_dropWhile hreversed

/-- A text is blank when trimming leaves nothing of it. -/
theorem allBlank_iff (s : String) : allBlank s = true ↔ trim s = "" := by
  rw [trim, String.ofList_eq_empty_iff, trimEnd_eq, List.rdropWhile_eq_nil_iff, allBlank, List.all_eq_true]
  refine ⟨fun h c hc => h c ((List.dropWhile_sublist isBlank).mem hc), fun h => ?_⟩
  -- What is left in front would start with a character that is not blank.
  have hstart : trimStart s.toList = [] := by
    cases hleft : trimStart s.toList with
    | nil => rfl
    | cons c cs =>
      have hblank : isBlank c = true := h c (hleft ▸ List.mem_cons_self)
      have hc : isBlank c = false := trimStart_start s.toList c (by rw [hleft]; rfl)
      rw [hblank] at hc
      cases hc
  exact List.dropWhile_eq_nil_iff.mp hstart

/-- What was trimmed is trimmed. -/
theorem trim_trim (s : String) : trim (trim s) = trim s := by
  refine trim_eq_self ?_ ?_
  · cases hstart : trimStart s.toList with
    | nil => exact nofun
    | cons c cs =>
      have hc : isBlank c = false := trimStart_start s.toList c (by rw [hstart]; rfl)
      obtain ⟨rest, hrest⟩ := trimEnd_cons hc cs
      rw [hrest]
      rintro _ ⟨⟩
      exact hc
  · intro c hc
    rw [trimEnd_eq] at hc
    obtain ⟨hne, rfl⟩ := List.mem_getLast?_eq_getLast hc
    exact Bool.eq_false_iff.mpr (List.rdropWhile_last_not isBlank _ hne)

end BucketQuery.Text
