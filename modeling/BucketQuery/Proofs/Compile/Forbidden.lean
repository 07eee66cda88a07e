import BucketQuery.Compile.Compiler
import Mathlib

/-! What condition text is refused for.

The rule is written as a pattern: a keyword between two boundaries of words, or the mark of a comment
anywhere (`Occurs`). It can be told by the words of the text as well, cut at every character that
belongs to none (`words`): text is refused exactly when a word of it is a keyword or a mark is part of it.
The error names the occurrence that starts first; there is only one that does. So a token is refused in
whatever text it stands, as long as no word goes on into it (`refused_iff_token`). -/
namespace BucketQuery.Sql.Forbidden

/-! ### The rule -/

/-- Simple case folding, as far as it ends in ASCII: the long s is an s, the kelvin sign a k. -/
def caseFold (c : Char) : Char :=
  if c = '\u017f' then 's' else if c = '\u212a' then 'k' else c.toLower

def marks : List (List Char) := [['-', '-'], ['/', '*'], ['*', '/']]

def endsInWord (cs : List Char) : Bool := cs.getLast?.any Text.isWordChar
def startsInWord (cs : List Char) : Bool := cs.head?.any Text.isWordChar

/-- A word begins or ends between two texts. -/
def WordBoundary (before after : List Char) : Prop := endsInWord before ≠ startsInWord after

/-- A forbidden token stands between two texts. -/
inductive Occurs (before : List Char) : (hit after : List Char) → Prop
  | keyword {k : String} {hit after : List Char} (listed : k ∈ keywords)
    (spelled : hit.map caseFold = k.toList.map caseFold) (front : WordBoundary before (hit ++ after))
    (back : WordBoundary (before ++ hit) after) : Occurs before hit after
  | mark {hit after : List Char} (listed : hit ∈ marks) : Occurs before hit after

/-- A forbidden token stands in the text, and none starts before it. -/
structure First (cs before hit after : List Char) : Prop where
  split : cs = before ++ (hit ++ after)
  occurs : Occurs before hit after
  first : ∀ before' hit' after', cs = before' ++ (hit' ++ after') → Occurs before' hit' after' →
    before.length ≤ before'.length

/-- A word of a text between what stands before and behind it, which does not go on into either. -/
structure IsWord (before word after : List Char) : Prop where
  ne_nil : word ≠ []
  all : ∀ c ∈ word, Text.isWordChar c = true
  before : endsInWord before = false
  after : startsInWord after = false

/-- The words of a text, the longest runs of word characters in it. -/
def words : List Char → List (List Char)
  | [] => []
  | c :: cs =>
    if Text.isWordChar c then (c :: cs.takeWhile Text.isWordChar) :: words (cs.dropWhile Text.isWordChar)
    else words cs
termination_by cs => cs.length
decreasing_by
  · exact Nat.lt_succ_of_le (List.dropWhile_suffix _).length_le
  · exact Nat.lt_succ_self _

/-! ### Keywords -/

theorem keywords_letters : ∀ k ∈ keywords, k.toList ≠ [] ∧ ∀ c ∈ k.toList, c.isUpper = true := by
  have h : keywords.all (fun k => !k.toList.isEmpty && k.toList.all Char.isUpper) = true := by decide +kernel
  simpa [List.all_eq_true, Bool.and_eq_true] using h

theorem caseFold_of_isUpper {k : Char} (h : k.isUpper = true) : caseFold k = k.toLower := by
  rw [caseFold, if_neg, if_neg]
  · rintro rfl
    exact absurd h (by decide)
  · rintro rfl
    exact absurd h (by decide)

/-- Capitals differ where their small letters do. -/
theorem eq_toLower_iff {c k : Char} (h : k.isUpper = true) : c.toUpper = k ↔ c.toLower = k.toLower := by
  have hupper : k.toUpper = k := Char.toUpper_eq_of_not_isLower fun hlower =>
    Char.not_isUpper_of_isLower hlower h
  constructor
  · rintro rfl
    rw [Char.toLower_toUpper_eq_toLower]
  · intro heq
    rw [← Char.toUpper_toLower_eq_toUpper, heq, Char.toUpper_toLower_eq_toUpper, hupper]

/-- Letters are compared by their capitals as they are compared by simple case folding. -/
theorem fold_eq_iff {c k : Char} (h : k.isUpper = true) : fold c = k ↔ caseFold c = caseFold k := by
  rw [caseFold_of_isUpper h]
  simp only [fold, caseFold, beq_iff_eq]
  split_ifs
  · exact eq_toLower_iff (c := 's') h
  · exact eq_toLower_iff (c := 'k') h
  · exact eq_toLower_iff h

theorem isWordChar_of_fold {c : Char} (h : (fold c).isUpper = true) : Text.isWordChar c = true := by
  simp only [fold, beq_iff_eq] at h
  split_ifs at h with hs hk
  · rw [hs]
    decide +kernel
  · rw [hk]
    decide +kernel
  · rw [Char.isUpper_toUpper_eq_isAlpha] at h
    have hletter : (65 ≤ c.toNat ∧ c.toNat ≤ 90) ∨ (97 ≤ c.toNat ∧ c.toNat ≤ 122) := by
      simpa [Char.isAlpha, Char.isUpper, Char.isLower, UInt32.le_iff_toNat_le] using h
    have hascii : c.toNat < 0x80 := by omega
    rw [Text.isWordChar, if_pos hascii, Char.isAlphanum, h, Bool.true_or, Bool.true_or]

theorem map_fold_eq_iff {word ks : List Char} (h : ∀ c ∈ ks, c.isUpper = true) :
    word.map fold = ks ↔ word.map caseFold = ks.map caseFold := by
  induction ks generalizing word with
  | nil => simp
  | cons k ks ih =>
    rw [List.forall_mem_cons] at h
    cases word with
    | nil => simp
    | cons c word => simp only [List.map_cons, List.cons.injEq, fold_eq_iff h.1, ih h.2]

theorem isKeyword_iff {word : List Char} :
    isKeyword word = true ↔ ∃ k ∈ keywords, word.map caseFold = k.toList.map caseFold := by
  rw [isKeyword, List.contains_iff_mem]
  constructor
  · intro h
    refine ⟨_, h, (map_fold_eq_iff (keywords_letters _ h).2).mp ?_⟩
    rw [String.toList_ofList]
  · rintro ⟨k, hk, h⟩
    rw [(map_fold_eq_iff (keywords_letters k hk).2).mpr h, String.ofList_toList]
    exact hk

/-- A keyword is a word, and not an empty one. -/
theorem isKeyword_word {word : List Char} (h : isKeyword word = true) :
    word ≠ [] ∧ ∀ c ∈ word, Text.isWordChar c = true := by
  rw [isKeyword, List.contains_iff_mem] at h
  obtain ⟨hne, hupper⟩ := keywords_letters _ h
  rw [String.toList_ofList] at hne hupper
  refine ⟨fun hnil => hne (by rw [hnil, List.map_nil]), fun c hc => isWordChar_of_fold ?_⟩
  exact hupper _ (List.mem_map_of_mem hc)

/-! ### Words -/

theorem endsInWord_concat (cs : List Char) (c : Char) : endsInWord (cs ++ [c]) = Text.isWordChar c := by
  rw [endsInWord, List.getLast?_concat, Option.any_some]

theorem endsInWord_append {bs : List Char} (h : bs ≠ []) (as : List Char) :
    endsInWord (as ++ bs) = endsInWord bs := by
  rw [endsInWord, List.getLast?_append_of_ne_nil as h, endsInWord]

theorem endsInWord_cons {c : Char} (h : ¬ Text.isWordChar c = true) (cs : List Char) :
    endsInWord (c :: cs) = endsInWord cs := by
  cases cs with
  | nil => exact Bool.eq_false_iff.mpr h
  | cons d cs => exact endsInWord_append (List.cons_ne_nil d cs) [c]

theorem startsInWord_append {as : List Char} (h : as ≠ []) (bs : List Char) :
    startsInWord (as ++ bs) = startsInWord as := by
  rw [startsInWord, List.head?_append_of_ne_nil as h, startsInWord]

section Word
variable {before word after : List Char} (hne : word ≠ []) (hall : ∀ c ∈ word, Text.isWordChar c = true)
include hne hall

theorem endsInWord_of_all : endsInWord word = true := by
  rw [endsInWord, List.getLast?_eq_some_getLast hne, Option.any_some]
  exact hall _ (List.getLast_mem hne)

theorem startsInWord_of_all : startsInWord word = true := by
  obtain ⟨c, rest, rfl⟩ := List.exists_cons_of_ne_nil hne
  exact hall c List.mem_cons_self

/-- A text of word characters is a word exactly where it is between two boundaries. -/
theorem boundaries_iff :
    WordBoundary before (word ++ after) ∧ WordBoundary (before ++ word) after ↔
      IsWord before word after := by
  rw [WordBoundary, WordBoundary, startsInWord_append hne, endsInWord_append hne,
    startsInWord_of_all hne hall, endsInWord_of_all hne hall, ne_eq, Bool.not_eq_true, ne_eq,
    eq_comm (a := true), Bool.not_eq_true]
  exact ⟨fun h => ⟨hne, hall, h.1, h.2⟩, fun h => ⟨h.before, h.after⟩⟩

end Word

/-- A word is what the word characters at its beginning are. -/
theorem takeWhile_word {word after : List Char} (hall : ∀ c ∈ word, Text.isWordChar c = true)
    (hafter : startsInWord after = false) : (word ++ after).takeWhile Text.isWordChar = word := by
  rw [List.takeWhile_append_of_pos hall]
  cases after with
  | nil => rw [List.takeWhile_nil, List.append_nil]
  | cons c rest =>
    have hc : ¬ Text.isWordChar c = true := Bool.eq_false_iff.mp hafter
    rw [List.takeWhile_cons_of_neg hc, List.append_nil]

theorem startsInWord_dropWhile (cs : List Char) : startsInWord (cs.dropWhile Text.isWordChar) = false := by
  induction cs with
  | nil => rfl
  | cons c cs ih =>
    rw [List.dropWhile_cons]
    split
    · exact ih
    · exact Bool.eq_false_iff.mpr ‹_›

theorem occurs_iff {before hit after : List Char} :
    Occurs before hit after ↔ IsWord before hit after ∧ isKeyword hit = true ∨ hit ∈ marks := by
  constructor
  · rintro (⟨hk, hspelled, hfront, hback⟩ | hmark)
    · have hkeyword := isKeyword_iff.mpr ⟨_, hk, hspelled⟩
      obtain ⟨hne, hall⟩ := isKeyword_word hkeyword
      exact .inl ⟨(boundaries_iff hne hall).mp ⟨hfront, hback⟩, hkeyword⟩
    · exact .inr hmark
  · rintro (⟨hword, hkeyword⟩ | hmark)
    · obtain ⟨k, hk, hspelled⟩ := isKeyword_iff.mp hkeyword
      obtain ⟨hfront, hback⟩ := (boundaries_iff hword.ne_nil hword.all).mpr hword
      exact .keyword hk hspelled hfront hback
    · exact .mark hmark

theorem Occurs.ne_nil {before hit after : List Char} (h : Occurs before hit after) : hit ≠ [] := by
  rcases occurs_iff.mp h with ⟨hword, -⟩ | hmark
  · exact hword.ne_nil
  · rintro rfl
    exact absurd hmark (by decide)

/-- Where a text begins with a word, a word of it is this one or stands behind it. -/
theorem isWord_run_iff {run rest word : List Char} (hne : run ≠ [])
    (hall : ∀ c ∈ run, Text.isWordChar c = true) (hstart : startsInWord rest = false) :
    (∃ before after, run ++ rest = before ++ (word ++ after) ∧ IsWord before word after) ↔
      word = run ∨ ∃ before after, rest = before ++ (word ++ after) ∧ IsWord before word after := by
  constructor
  · rintro ⟨before, after, heq, hword⟩
    rcases List.append_eq_append_iff.mp heq with ⟨gap, rfl, hrest⟩ | ⟨left, hbefore, -⟩
    · refine .inr ⟨gap, after, hrest, {hword with before := ?_}⟩
      by_cases hgap : gap = []
      · rw [hgap]
        rfl
      · rw [← endsInWord_append hgap]
        exact hword.before
    · by_cases hnil : before = []
      · subst hnil
        have htake := congrArg (List.takeWhile Text.isWordChar) heq
        rw [takeWhile_word hall hstart, List.nil_append, takeWhile_word hword.all hword.after] at htake
        exact .inl htake.symm
      · have hend := endsInWord_of_all hnil fun d hd => hall d (hbefore ▸ List.mem_append_left _ hd)
        rw [hword.before] at hend
        cases hend
  · rintro (rfl | ⟨before, after, rfl, hword⟩)
    · exact ⟨[], _, rfl, hne, hall, rfl, hstart⟩
    · have hbefore : before ≠ [] := by
        rintro rfl
        rw [List.nil_append, startsInWord_append hword.ne_nil,
          startsInWord_of_all hword.ne_nil hword.all] at hstart
        cases hstart
      refine ⟨run ++ before, after, (List.append_assoc ..).symm, ?_⟩
      exact {hword with before := (endsInWord_append hbefore _).trans hword.before}

/-- The words of a text are the words that stand in it somewhere. -/
theorem mem_words_iff {cs word : List Char} :
    word ∈ words cs ↔ ∃ before after, cs = before ++ (word ++ after) ∧ IsWord before word after := by
  induction cs using words.induct with
  | case1 =>
    rw [words]
    refine iff_of_false List.not_mem_nil ?_
    rintro ⟨before, after, heq, hword⟩
    have hnil := (List.append_eq_nil_iff.mp heq.symm).2
    exact hword.ne_nil (List.append_eq_nil_iff.mp hnil).1
  | case2 c cs hc ih =>
    have hrun : c :: cs = (c :: cs.takeWhile Text.isWordChar) ++ cs.dropWhile Text.isWordChar := by
      rw [List.cons_append, List.takeWhile_append_dropWhile]
    have hall : ∀ d ∈ c :: cs.takeWhile Text.isWordChar, Text.isWordChar d = true :=
      List.forall_mem_cons.mpr ⟨hc, fun d hd => (List.mem_takeWhile_imp hd)⟩
    rw [words, if_pos hc, List.mem_cons, ih, hrun]
    exact (isWord_run_iff (List.cons_ne_nil _ _) hall (startsInWord_dropWhile cs)).symm
  | case3 c cs hc ih =>
    rw [words, if_neg hc, ih]
    constructor
    · rintro ⟨before, after, rfl, hword⟩
      refine ⟨c :: before, after, rfl, {hword with before := ?_}⟩
      rw [← hword.before]
      exact endsInWord_cons hc before
    · rintro ⟨before, after, heq, hword⟩
      cases before with
      | nil =>
        obtain ⟨d, rest, rfl⟩ := List.exists_cons_of_ne_nil hword.ne_nil
        obtain rfl : c = d := (List.cons.inj heq).1
        exact absurd (hword.all c List.mem_cons_self) hc
      | cons d before =>
        obtain ⟨rfl, rfl⟩ := List.cons.inj heq
        refine ⟨before, after, rfl, {hword with before := ?_}⟩
        rw [← hword.before]
        exact (endsInWord_cons hc before).symm

/-! ### The search -/

/-- The forbidden token at the very start of the rest of a text. -/
def tokenAt (inWord : Bool) : List Char → Option (List Char)
  | [] => none
  | c :: rest =>
    if !inWord && isKeyword ((c :: rest).takeWhile Text.isWordChar) then
      some ((c :: rest).takeWhile Text.isWordChar)
    else if isCommentMark c (rest.headD ' ') then some (c :: rest.take 1)
    else none

theorem find_cons (inWord : Bool) (c : Char) (rest : List Char) :
    find inWord (c :: rest) = (tokenAt inWord (c :: rest)).or (find (Text.isWordChar c) rest) := by
  rw [find, tokenAt]
  split_ifs
  · rfl
  · rfl
  · rfl

theorem not_wordChar_of_mark {c d : Char} (h : isCommentMark c d = true) : ¬ Text.isWordChar c = true := by
  have hc : c = '-' ∨ c = '/' ∨ c = '*' := by
    simp only [isCommentMark, Bool.or_eq_true, Bool.and_eq_true, beq_iff_eq] at h
    tauto
  rcases hc with rfl | rfl | rfl <;> decide

section Start
variable {before rest hit : List Char} {c : Char}

theorem keyword_start_iff :
    (∃ after, c :: rest = hit ++ after ∧ IsWord before hit after ∧ isKeyword hit = true) ↔
      (endsInWord before = false ∧ isKeyword ((c :: rest).takeWhile Text.isWordChar) = true) ∧
        (c :: rest).takeWhile Text.isWordChar = hit := by
  constructor
  · rintro ⟨after, heq, hword, hkeyword⟩
    rw [heq, takeWhile_word hword.all hword.after]
    exact ⟨⟨hword.before, hkeyword⟩, rfl⟩
  · rintro ⟨⟨hbefore, hkeyword⟩, rfl⟩
    obtain ⟨hne, hall⟩ := isKeyword_word hkeyword
    exact ⟨_, (List.takeWhile_append_dropWhile).symm,
      ⟨hne, hall, hbefore, startsInWord_dropWhile _⟩, hkeyword⟩

theorem mark_start_iff :
    (∃ after, c :: rest = hit ++ after ∧ hit ∈ marks) ↔
      isCommentMark c (rest.headD ' ') = true ∧ c :: rest.take 1 = hit := by
  constructor
  · rintro ⟨after, heq, hmark⟩
    simp only [marks, List.mem_cons, List.not_mem_nil, or_false] at hmark
    rcases hmark with rfl | rfl | rfl <;> (obtain ⟨rfl, rfl⟩ := List.cons.inj heq; exact ⟨rfl, rfl⟩)
  · rintro ⟨hmark, rfl⟩
    cases rest with
    | nil => simp [isCommentMark] at hmark
    | cons d after =>
      refine ⟨after, rfl, ?_⟩
      show [c, d] ∈ marks
      simpa [isCommentMark, marks, or_assoc] using hmark

theorem tokenAt_eq_some_iff :
    tokenAt (endsInWord before) (c :: rest) = some hit ↔
      ∃ after, c :: rest = hit ++ after ∧ Occurs before hit after := by
  simp only [occurs_iff, and_or_left, exists_or, keyword_start_iff, mark_start_iff]
  rw [tokenAt]
  simp only [Bool.and_eq_true, Bool.not_eq_true']
  split_ifs with hkeyword hmark
  · -- A keyword starts with a word character, a mark does not.
    have hno : ¬ isCommentMark c (rest.headD ' ') = true := by
      intro hmark
      have hnil := List.takeWhile_cons_of_neg (l := rest) (not_wordChar_of_mark hmark)
      exact (isKeyword_word hkeyword.2).1 hnil
    rw [or_iff_left fun h => hno h.1, and_iff_right hkeyword, Option.some.injEq]
  · rw [or_iff_right fun h => hkeyword h.1, and_iff_right hmark, Option.some.injEq]
  · refine iff_of_false (by rintro ⟨⟩) ?_
    rintro (h | h)
    · exact hkeyword h.1
    · exact hmark h.1

end Start

/-- The search finds the token that starts first. -/
theorem find_eq_some_iff {before cs hit : List Char} :
    find (endsInWord before) cs = some hit ↔ ∃ skipped after, cs = skipped ++ (hit ++ after) ∧
      Occurs (before ++ skipped) hit after ∧
      ∀ skipped' hit' after', cs = skipped' ++ (hit' ++ after') → Occurs (before ++ skipped') hit' after' →
        skipped.length ≤ skipped'.length := by
  induction cs generalizing before with
  | nil =>
    rw [find]
    refine iff_of_false (by rintro ⟨⟩) ?_
    rintro ⟨skipped, after, heq, hoccurs, -⟩
    exact hoccurs.ne_nil (List.append_eq_nil_iff.mp (List.append_eq_nil_iff.mp heq.symm).2).1
  | cons c rest ih =>
    rw [find_cons]
    cases htoken : tokenAt (endsInWord before) (c :: rest) with
    | some token =>
      obtain ⟨behind, hhere, htokenOccurs⟩ := tokenAt_eq_some_iff.mp htoken
      rw [Option.some_or, Option.some.injEq]
      constructor
      · rintro rfl
        exact ⟨[], behind, hhere, (List.append_nil before).symm ▸ htokenOccurs,
          fun _ _ _ _ _ => Nat.zero_le _⟩
      · rintro ⟨skipped, after, heq, hoccurs, hfirst⟩
        have hlength := hfirst [] token behind hhere ((List.append_nil before).symm ▸ htokenOccurs)
        obtain rfl := List.length_eq_zero_iff.mp (Nat.le_zero.mp hlength)
        rw [List.append_nil] at hoccurs
        have hhit := tokenAt_eq_some_iff.mpr ⟨after, heq, hoccurs⟩
        rw [htoken] at hhit
        exact Option.some.inj hhit
    | none =>
      -- No token starts here, so whatever stands in the text stands behind its first character.
      have hbehind {skipped hit after : List Char} (heq : c :: rest = skipped ++ (hit ++ after))
          (hoccurs : Occurs (before ++ skipped) hit after) :
          ∃ left, skipped = c :: left ∧ rest = left ++ (hit ++ after) := by
        cases skipped with
        | nil =>
          rw [List.append_nil] at hoccurs
          have hhit := tokenAt_eq_some_iff.mpr ⟨after, heq, hoccurs⟩
          rw [htoken] at hhit
          cases hhit
        | cons d left =>
          obtain ⟨rfl, rfl⟩ := List.cons.inj heq
          exact ⟨left, rfl, rfl⟩
      have hmoved (left : List Char) : before ++ c :: left = (before ++ [c]) ++ left := by
        rw [List.append_assoc, List.singleton_append]
      rw [Option.none_or, ← endsInWord_concat before, ih]
      constructor
      · rintro ⟨left, after, rfl, hoccurs, hfirst⟩
        refine ⟨c :: left, after, rfl, hmoved left ▸ hoccurs, ?_⟩
        intro skipped' hit' after' heq hoccurs'
        obtain ⟨left', rfl, heq'⟩ := hbehind heq hoccurs'
        exact Nat.succ_le_succ (hfirst left' hit' after' heq' (hmoved left' ▸ hoccurs'))
      · rintro ⟨skipped, after, heq, hoccurs, hfirst⟩
        obtain ⟨left, rfl, hrest⟩ := hbehind heq hoccurs
        refine ⟨left, after, hrest, hmoved left ▸ hoccurs, fun left' hit' after' heq' hoccurs' => ?_⟩
        exact Nat.le_of_succ_le_succ
          (hfirst (c :: left') hit' after' (heq' ▸ rfl) ((hmoved left').symm ▸ hoccurs'))

theorem find_eq_some_iff_first {cs hit : List Char} :
    find false cs = some hit ↔ ∃ before after, First cs before hit after := by
  show find (endsInWord []) cs = some hit ↔ _
  rw [find_eq_some_iff]
  constructor
  · rintro ⟨before, after, hsplit, hoccurs, hfirst⟩
    exact ⟨before, after, hsplit, hoccurs, hfirst⟩
  · rintro ⟨before, after, h⟩
    exact ⟨before, after, h.split, h.occurs, h.first⟩

/-- Where a token stands, one is found. -/
theorem find_isSome_of_occurs {before skipped hit after : List Char}
    (h : Occurs (before ++ skipped) hit after) :
    (find (endsInWord before) (skipped ++ (hit ++ after))).isSome = true := by
  induction skipped generalizing before with
  | nil =>
    rw [List.append_nil] at h
    obtain ⟨c, rest, rfl⟩ := List.exists_cons_of_ne_nil h.ne_nil
    have hhit : tokenAt (endsInWord before) (c :: (rest ++ after)) = some (c :: rest) :=
      tokenAt_eq_some_iff.mpr ⟨after, rfl, h⟩
    rw [List.nil_append, List.cons_append, find_cons, hhit, Option.some_or, Option.isSome_some]
  | cons c left ih =>
    have hmoved : Occurs ((before ++ [c]) ++ left) hit after := by
      rwa [List.append_assoc, List.singleton_append]
    have hlater := ih hmoved
    rw [endsInWord_concat] at hlater
    rw [List.cons_append, find_cons, Option.isSome_or, hlater, Bool.or_true]

theorem find_isSome_iff {cs : List Char} :
    (find false cs).isSome = true ↔
      ∃ before hit after, cs = before ++ (hit ++ after) ∧ Occurs before hit after := by
  constructor
  · intro h
    obtain ⟨hit, hhit⟩ := Option.isSome_iff_exists.mp h
    obtain ⟨before, after, hfirst⟩ := find_eq_some_iff_first.mp hhit
    exact ⟨before, hit, after, hfirst.split, hfirst.occurs⟩
  · rintro ⟨before, hit, after, rfl, hoccurs⟩
    have hempty : Occurs ([] ++ before) hit after := hoccurs
    exact find_isSome_of_occurs hempty

/-- The tokens of a text are its marks, and its words that are keywords. -/
theorem occurs_in_iff {cs : List Char} :
    (∃ before hit after, cs = before ++ (hit ++ after) ∧ Occurs before hit after) ↔
      (∃ mark ∈ marks, mark <:+: cs) ∨
        ∃ word ∈ words cs, ∃ k ∈ keywords, word.map caseFold = k.toList.map caseFold := by
  simp only [mem_words_iff, ← isKeyword_iff, occurs_iff]
  constructor
  · rintro ⟨before, hit, after, heq, ⟨hword, hkeyword⟩ | hmark⟩
    · exact .inr ⟨hit, ⟨before, after, heq, hword⟩, hkeyword⟩
    · exact .inl ⟨hit, hmark, before, after, by rw [heq, List.append_assoc]⟩
  · rintro (⟨mark, hmark, before, after, heq⟩ | ⟨word, ⟨before, after, heq, hword⟩, hkeyword⟩)
    · exact ⟨before, mark, after, by rw [← heq, List.append_assoc], .inr hmark⟩
    · exact ⟨before, word, after, heq, .inl ⟨hword, hkeyword⟩⟩

/-- A token stays one in a longer text if no word goes on into what is put around it. -/
theorem Occurs.surround {before hit after : List Char} (h : Occurs before hit after) {c d : Char}
    (hc : Text.isWordChar c = false) (hd : Text.isWordChar d = false) (front back : List Char) :
    Occurs (front ++ c :: before) hit (after ++ d :: back) := by
  rcases occurs_iff.mp h with ⟨hword, hkeyword⟩ | hmark
  · refine occurs_iff.mpr (.inl ⟨⟨hword.ne_nil, hword.all, ?_, ?_⟩, hkeyword⟩)
    · rw [endsInWord_append (List.cons_ne_nil c before), endsInWord_cons (Bool.eq_false_iff.mp hc)]
      exact hword.before
    · by_cases hnil : after = []
      · rw [hnil]
        exact hd
      · rw [startsInWord_append hnil]
        exact hword.after
  · exact .mark hmark

end BucketQuery.Sql.Forbidden

namespace BucketQuery.Compile

open Sql.Forbidden

theorem checkText_eq_error_iff {text : String} {e : Error} :
    checkText text = .error e ↔
      ∃ hit, find false text.toList = some hit ∧ e = .unsafeFilter (.forbidden (String.ofList hit)) := by
  rw [checkText, Sql.forbidden?]
  cases find false text.toList with
  | none => simp
  | some hit => simp [eq_comm]

theorem checkText_fails_iff {text : String} :
    (∃ e, checkText text = .error e) ↔
      ∃ before hit after, text.toList = before ++ (hit ++ after) ∧ Occurs before hit after := by
  rw [← find_isSome_iff, Option.isSome_iff_exists]
  simp only [checkText_eq_error_iff]
  constructor
  · rintro ⟨e, hit, hfind, -⟩
    exact ⟨hit, hfind⟩
  · rintro ⟨hit, hfind⟩
    exact ⟨_, hit, hfind, rfl⟩

/-- Condition text is refused exactly for a mark of a comment anywhere in it and for a word that is a
keyword, whatever the case of its letters; the error names the token that starts first. What is put around
refused text behind characters of no word does not hide the token. -/
theorem refused_iff_token (text : String) :
    ((∃ e, checkText text = .error e) ↔
      (∃ mark ∈ marks, mark <:+: text.toList) ∨
        ∃ word ∈ words text.toList, ∃ k ∈ keywords, word.map caseFold = k.toList.map caseFold) ∧
    (∀ e, checkText text = .error e ↔
      ∃ before hit after, First text.toList before hit after ∧
        e = .unsafeFilter (.forbidden (String.ofList hit)) ∧
        e.message =
          "unsafe filter rejected: raw filter contains forbidden token " ++ (String.ofList hit).toUpper) ∧
    ((∃ e, checkText text = .error e) → ∀ (front back : String) (c d : Char),
      Text.isWordChar c = false → Text.isWordChar d = false →
        ∃ e, checkText (front ++ String.singleton c ++ text ++ String.singleton d ++ back) = .error e) := by
  refine ⟨checkText_fails_iff.trans occurs_in_iff, fun e => ?_, fun h front back c d hc hd => ?_⟩
  · simp only [checkText_eq_error_iff, find_eq_some_iff_first]
    constructor
    · rintro ⟨hit, ⟨before, after, hfirst⟩, rfl⟩
      exact ⟨before, hit, after, hfirst, rfl, String.append_assoc.symm⟩
    · rintro ⟨before, hit, after, hfirst, he, -⟩
      exact ⟨hit, ⟨before, after, hfirst⟩, he⟩
  · obtain ⟨before, hit, after, heq, hoccurs⟩ := checkText_fails_iff.mp h
    refine checkText_fails_iff.mpr ⟨_, hit, _, ?_, hoccurs.surround hc hd front.toList back.toList⟩
    simp [heq]

/-- A keyword with the kelvin sign for its K, in parentheses. -/
theorem kelvin_revoke_refused :
    (∃ e, checkText "revo\u212ae" = .error e) ∧ Text.isWordChar '(' = false ∧ Text.isWordChar ')' = false ∧
      ∃ e, checkText ("exists" ++ String.singleton '(' ++ "revo\u212ae" ++ String.singleton ')' ++ " or 1=1") =
        .error e := by
  have hrefused : ∃ e, checkText "revo\u212ae" = .error e :=
    ⟨_, checkText_eq_error_iff.mpr ⟨"revo\u212ae".toList, by decide +kernel, rfl⟩⟩
  have hopening : Text.isWordChar '(' = false := by decide
  have hclosing : Text.isWordChar ')' = false := by decide
  exact ⟨hrefused, hopening, hclosing,
    (refused_iff_token _).2.2 hrefused "exists" " or 1=1" '(' ')' hopening hclosing⟩

end BucketQuery.Compile
