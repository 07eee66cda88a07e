import BucketQuery.Proofs.Outcome
import BucketQuery.Proofs.Text.Blank
import BucketQuery.Proofs.Text.Bytes
import BucketQuery.Section.Registry
import Mathlib.Data.List.Nodup
import Mathlib.Data.List.Perm.Basic

/-! A registry is an index of what it was filled with.

A section finds a place unless its name is blank or taken, and takes nothing away from the sections that
are there (`insert_eq_ok_iff`), so a registry that has been filled holds exactly the sections given. It
holds them in the order of their names, which leaves one registry for all orders of giving them.
Main statement, `faithful_index`. -/
namespace BucketQuery.Section

/-! ### Names -/

/-- No name is blank, and no two are equal. -/
structure WellNamed (sections : List Definition) : Prop where
  named : ∀ s ∈ sections, Text.trim s.name ≠ ""
  distinct : (sections.map Definition.name).Nodup

/-- Why a section finds no place behind others. -/
inductive Clash (before : List Definition) (s : Definition) : Invalid → Prop where
  | blank (unnamed : Text.trim s.name = "") : Clash before s .blankSectionName
  | taken (named : Text.trim s.name ≠ "") (taken : s.name ∈ before.map Definition.name) :
    Clash before s (.duplicateSection s.name)

theorem wellNamed_concat {sections : List Definition} {s : Definition} (h : WellNamed sections)
    (named : Text.trim s.name ≠ "") (free : s.name ∉ sections.map Definition.name) :
    WellNamed (sections ++ [s]) := by
  refine ⟨List.forall_mem_append.mpr ⟨h.named, List.forall_mem_singleton.mpr named⟩, ?_⟩
  rw [List.map_append, List.map_singleton]
  exact List.Nodup.append h.distinct (List.nodup_singleton _) (List.disjoint_singleton.mpr free)

/-- Sections among which one clashes with those before it are not well named. -/
theorem Clash.not_wellNamed {before : List Definition} {s : Definition} {cause : Invalid}
    (h : Clash before s cause) (after : List Definition) : ¬ WellNamed (before ++ s :: after) := by
  rintro ⟨hnamed, hdistinct⟩
  cases h with
  | blank unnamed => exact hnamed s (by simp) unnamed
  | taken _ taken =>
    rw [List.map_append, List.map_cons, List.nodup_append] at hdistinct
    exact hdistinct.2.2 _ taken _ List.mem_cons_self rfl

/-- What clashes with sections does so in any order of them. -/
theorem Clash.perm {before others : List Definition} {s : Definition} {cause : Invalid}
    (h : Clash before s cause) (hperm : others.Perm before) : Clash others s cause := by
  cases h with
  | blank unnamed => exact .blank unnamed
  | taken named taken => exact .taken named ((hperm.map _).mem_iff.mpr taken)

theorem WellNamed.perm {sections others : List Definition} (h : WellNamed sections)
    (hperm : others.Perm sections) : WellNamed others :=
  ⟨fun s hs => h.named s (hperm.mem_iff.mp hs), (hperm.map _).nodup_iff.mpr h.distinct⟩

namespace Registry

/-! ### One section -/

theorem place_perm (s : Definition) (l : List Definition) : (place s l).Perm (s :: l) := by
  induction l with
  | nil => exact .refl _
  | cons t rest ih =>
    unfold place
    split
    · exact .refl _
    · exact (ih.cons t).trans (.swap s t rest)

variable {r : Registry} {s : Definition}

theorem get?_eq_none_iff {name : String} :
    r.get? name = none ↔ name ∉ r.sections.map Definition.name := by
  simp [get?, List.find?_eq_none]

theorem mem_of_get? {name : String} (h : r.get? name = some s) : s ∈ r.sections ∧ s.name = name :=
  ⟨List.mem_of_find?_eq_some h, by simpa using List.find?_some h⟩

theorem insert_eq_ok_iff {after : Registry} :
    r.insert s = .ok after ↔ Text.trim s.name ≠ "" ∧ s.name ∉ r.sections.map Definition.name ∧
      after.sections = place s r.sections := by
  rw [ne_eq, ← Text.allBlank_iff, ← get?_eq_none_iff]
  unfold insert
  split
  · rename_i hblank
    simp [hblank]
  · rename_i hblank
    split
    · rename_i t ht
      simp [ht]
    · rename_i hfree
      obtain ⟨sections, sorted⟩ := after
      simp [hblank, hfree, eq_comm]

theorem insert_eq_error_iff {e : Error} :
    r.insert s = .error e ↔ ∃ cause, Clash r.sections s cause ∧ e = .invalid cause := by
  unfold insert
  split
  · rename_i hblank
    rw [Text.allBlank_iff] at hblank
    constructor
    · rintro ⟨⟩
      exact ⟨_, .blank hblank, rfl⟩
    · rintro ⟨cause, hclash, rfl⟩
      cases hclash with
      | blank => rfl
      | taken hnamed => exact absurd hblank hnamed
  · rename_i hblank
    rw [Text.allBlank_iff] at hblank
    split
    · rename_i t ht
      obtain ⟨hmem, hname⟩ := mem_of_get? ht
      have htaken : s.name ∈ r.sections.map Definition.name := List.mem_map.mpr ⟨t, hmem, hname⟩
      constructor
      · rintro ⟨⟩
        exact ⟨_, .taken hblank htaken, rfl⟩
      · rintro ⟨cause, hclash, rfl⟩
        cases hclash with
        | blank hnone => exact absurd hnone hblank
        | taken => rfl
    · rename_i hfree
      rw [get?_eq_none_iff] at hfree
      constructor
      · intro h
        cases h
      · rintro ⟨cause, hclash, rfl⟩
        cases hclash with
        | blank hnone => exact absurd hnone hblank
        | taken _ htaken => exact absurd htaken hfree

/-! ### What a registry holds -/

theorem names_nodup (r : Registry) : (r.sections.map Definition.name).Nodup :=
  List.pairwise_map.mpr (r.sorted.imp fun h => String.ne_of_lt h)

theorem get?_eq_some_iff {name : String} : r.get? name = some s ↔ s ∈ r.sections ∧ s.name = name := by
  refine ⟨mem_of_get?, ?_⟩
  rintro ⟨hs, rfl⟩
  cases ht : r.get? s.name with
  | none => exact absurd (List.mem_map_of_mem hs) (get?_eq_none_iff.mp ht)
  | some t =>
    obtain ⟨hmem, hname⟩ := mem_of_get? ht
    rw [List.inj_on_of_nodup_map r.names_nodup hmem hs hname]

/-- The order of a registry is that of the bytes of its names. -/
theorem names_sorted (r : Registry) : r.names.Pairwise fun a b => Text.bytes a < Text.bytes b :=
  List.pairwise_map.mpr (r.sorted.imp Text.bytes_lt_iff.mpr)

/-- Registries that hold the same sections are equal. -/
theorem eq_of_perm {other : Registry} (h : r.sections.Perm other.sections) : r = other := by
  obtain ⟨sections, sorted⟩ := r
  obtain ⟨others, othersSorted⟩ := other
  obtain rfl : sections = others :=
    h.eq_of_pairwise (fun _ _ _ _ hab hba => absurd hba (String.lt_asymm hab)) sorted othersSorted
  rfl

/-! ### Many sections -/

theorem ofList_concat (sections : List Definition) (s : Definition) :
    ofList (sections ++ [s]) = ofList sections >>= fun r => r.insert s := by
  rw [ofList, List.foldlM_append]
  refine bind_congr fun r => ?_
  show (r.insert s >>= pure) = _
  rw [bind_pure]

/-- A registry that was filled holds what it was filled with. -/
theorem ofList_ok {sections : List Definition} (h : ofList sections = .ok r) :
    WellNamed sections ∧ r.sections.Perm sections := by
  induction sections using List.reverseRecOn generalizing r with
  | nil =>
    cases h
    exact ⟨⟨fun _ ht => absurd ht List.not_mem_nil, List.nodup_nil⟩, .refl _⟩
  | append_singleton sections s ih =>
    rw [ofList_concat] at h
    obtain ⟨filled, hfilled, hinsert⟩ := ok_of_bind h
    obtain ⟨hwell, hperm⟩ := ih hfilled
    obtain ⟨hnamed, hfree, hsections⟩ := insert_eq_ok_iff.mp hinsert
    rw [(hperm.map Definition.name).mem_iff] at hfree
    refine ⟨wellNamed_concat hwell hnamed hfree, ?_⟩
    rw [hsections]
    exact (place_perm s filled.sections).trans
      ((hperm.cons s).trans (List.perm_append_singleton s sections).symm)

/-- What fails to fill a registry clashes with what is before it. -/
theorem clash_of_error {sections : List Definition} {e : Error} (h : ofList sections = .error e) :
    ∃ before s after cause, sections = before ++ s :: after ∧ WellNamed before ∧
      Clash before s cause ∧ e = .invalid cause := by
  induction sections using List.reverseRecOn with
  | nil => cases h
  | append_singleton sections s ih =>
    rw [ofList_concat] at h
    rcases bind_eq_error_iff.mp h with h | ⟨filled, hfilled, hinsert⟩
    · obtain ⟨before, t, after, cause, rfl, hclash⟩ := ih h
      exact ⟨before, t, after ++ [s], cause, by simp, hclash⟩
    · obtain ⟨hwell, hperm⟩ := ofList_ok hfilled
      obtain ⟨cause, hclash, rfl⟩ := insert_eq_error_iff.mp hinsert
      exact ⟨sections, s, [], cause, rfl, hwell, hclash.perm hperm.symm, rfl⟩

theorem ofList_of_wellNamed {sections : List Definition} (h : WellNamed sections) :
    ∃ r, ofList sections = .ok r := by
  cases hfill : ofList sections with
  | ok r => exact ⟨r, rfl⟩
  | error e =>
    obtain ⟨before, s, after, cause, rfl, _, hclash, _⟩ := clash_of_error hfill
    exact absurd h (hclash.not_wellNamed after)

/-- What clashes with what is before it fails to fill a registry, whatever comes behind it. -/
theorem error_of_clash {before : List Definition} {s : Definition} {cause : Invalid}
    (hwell : WellNamed before) (hclash : Clash before s cause) (after : List Definition) :
    ofList (before ++ s :: after) = .error (.invalid cause) := by
  obtain ⟨filled, hfilled⟩ := ofList_of_wellNamed hwell
  have hinsert : filled.insert s = .error (.invalid cause) :=
    insert_eq_error_iff.mpr ⟨cause, hclash.perm (ofList_ok hfilled).2, rfl⟩
  rw [ofList, List.foldlM_append]
  refine bind_eq_error_iff.mpr (.inr ⟨filled, hfilled, ?_⟩)
  rw [List.foldlM_cons]
  exact bind_eq_error_iff.mpr (.inl hinsert)

/-- **A registry is a faithful index.** Sections fill a registry exactly when they are well named. It then
holds each of them under its name and nothing else, lists the names by their bytes, and is the same
registry for every order of the sections. Otherwise the first section that clashes with those before
it is what is reported. -/
theorem faithful_index (sections : List Definition) :
    ((∃ r, ofList sections = .ok r) ↔ WellNamed sections) ∧
    (∀ r, ofList sections = .ok r →
      r.size = sections.length ∧
      r.names.Perm (sections.map Definition.name) ∧
      (r.names.Pairwise fun a b => Text.bytes a < Text.bytes b) ∧
      (∀ name s, r.get? name = some s ↔ s ∈ sections ∧ s.name = name) ∧
      ∀ others : List Definition, others.Perm sections → ofList others = .ok r) ∧
    ∀ e, ofList sections = .error e ↔
      ∃ before s after cause, sections = before ++ s :: after ∧ WellNamed before ∧
        Clash before s cause ∧ e = .invalid cause := by
  refine ⟨⟨?_, ofList_of_wellNamed⟩, fun r hr => ?_, fun e => ⟨clash_of_error, ?_⟩⟩
  · rintro ⟨r, hr⟩
    exact (ofList_ok hr).1
  · obtain ⟨hwell, hperm⟩ := ofList_ok hr
    refine ⟨hperm.length_eq, hperm.map _, r.names_sorted, fun name s => ?_, fun others hothers => ?_⟩
    · rw [get?_eq_some_iff, hperm.mem_iff]
    · obtain ⟨r', hr'⟩ := ofList_of_wellNamed (hwell.perm hothers)
      rw [hr', eq_of_perm ((ofList_ok hr').2.trans (hothers.trans hperm.symm))]
  · rintro ⟨before, s, after, cause, rfl, hwell, hclash, rfl⟩
    exact error_of_clash hwell hclash after

/-- A section that asks for days. -/
def dailySection (name : String) : Definition := ⟨name, none, none, .new .daily⟩

-- Behind the name that is taken stands a blank one, which is not what is reported.
theorem three_sections_indexed :
    ∃ r, ofList [dailySection "sla", dailySection "abandon", dailySection "volume"] = .ok r ∧
      r.get? "abandon" = some (dailySection "abandon") ∧
      ofList [dailySection "volume", dailySection "sla", dailySection "abandon"] = .ok r ∧
      ofList [dailySection "volume", dailySection "sla", dailySection "volume", dailySection " "] =
        .error (.invalid (.duplicateSection "volume")) := by
  have hwell : WellNamed [dailySection "sla", dailySection "abandon", dailySection "volume"] :=
    ⟨by decide +kernel, by decide +kernel⟩
  obtain ⟨r, hr⟩ := (faithful_index _).1.mpr hwell
  obtain ⟨-, -, -, hget, hperm⟩ := (faithful_index _).2.1 r hr
  refine ⟨r, hr, (hget _ _).mpr ⟨by simp, rfl⟩, hperm _ (by decide +kernel),
    ((faithful_index _).2.2 _).mpr ?_⟩
  exact ⟨[dailySection "volume", dailySection "sla"], dailySection "volume", [dailySection " "], _, rfl,
    ⟨by decide +kernel, by decide +kernel⟩, .taken (by decide +kernel) (by decide +kernel), rfl⟩

end Registry

end BucketQuery.Section
