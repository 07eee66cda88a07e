import BucketQuery.Proofs.Files.Folder
import BucketQuery.Proofs.Section.Registry
import BucketQuery.Section.File

/-! A folder of sections is indexed file by file.

The files are taken in order, each is read and finds its place behind those before it, and the first that
does not is what is reported (`fill_eq_ok_iff`, `fill_eq_error_iff`). Which files there are is
told by the folder and by their endings, as long as no wildcard is spliced in with the folder's path. Main
statement, `folder_indexed`. -/
namespace BucketQuery.Section

open Files (Disk Plain)

/-- The section in a file of that name: JSON behind the ending `.json`, YAML behind any other. -/
def Definition.ofFile (name : String) : Except String String → Result Definition
  | .error reason => .error (.io reason)
  | .ok text =>
    if Files.extension? name = some "json" then Definition.ofJsonText text else Definition.ofYaml text

namespace Registry

/-- Why what was read from the file at `path` finds no place behind sections. -/
inductive Offends (before : List Definition) (path : String) : Result Definition → Error → Prop where
  | unread (e : Error) : Offends before path (.error e) e
  | clash {s : Definition} {cause : Invalid} (clash : Clash before s cause) :
    Offends before path (.ok s) (.invalid (.inFile cause path))

theorem Offends.perm {before others : List Definition} {path : String} {read : Result Definition}
    {e : Error} (h : Offends before path read e) (hperm : others.Perm before) :
    Offends others path read e := by
  cases h with
  | unread => exact .unread e
  | clash hclash => exact .clash (hclash.perm hperm)

variable (disk : Disk Id)

/-! ### One file -/

/-- The section in the file at a path. -/
def sectionAt (path : String) : Result Definition := Definition.ofFile path (Id.run (disk.readText path))

/-- Puts the section in a file where its name belongs. -/
def load (r : Registry) (path : String) : Result Registry :=
  sectionAt disk path >>= fun s => located path (r.insert s)

/-- The registry of the sections in files, taken one after the other. -/
def fill (paths : List String) : Result Registry := paths.foldlM (load disk) empty

theorem run_insertFile (r : Registry) (path : String) :
    Id.run (insertFile disk r path) = load disk r path := by
  rw [insertFile, load, sectionAt]
  simp only [Id.run_bind]
  generalize Id.run (disk.readText path) = read
  cases read with
  | error reason => rfl
  | ok text =>
    rw [Definition.ofFile]
    by_cases hjson : Files.extension? path = some "json"
    · rw [if_pos hjson, if_pos hjson]
      rfl
    · rw [if_neg hjson, if_neg hjson]
      rfl

theorem located_eq_ok_iff {path : String} {x : Result Registry} {r : Registry} :
    located path x = .ok r ↔ x = .ok r := by
  rw [located.eq_def]
  split
  · exact ⟨nofun, nofun⟩
  · rfl

theorem located_eq_error_iff {path : String} {r : Registry} {s : Definition} {e : Error} :
    located path (r.insert s) = .error e ↔
      ∃ cause, Clash r.sections s cause ∧ e = .invalid (.inFile cause path) := by
  cases hinsert : r.insert s with
  | ok after =>
    refine ⟨nofun, fun ⟨cause, hclash, _⟩ => ?_⟩
    rw [insert_eq_error_iff.mpr ⟨cause, hclash, rfl⟩] at hinsert
    cases hinsert
  | error e' =>
    obtain ⟨cause, hclash, rfl⟩ := insert_eq_error_iff.mp hinsert
    constructor
    · intro h
      cases h
      exact ⟨cause, hclash, rfl⟩
    · rintro ⟨other, hother, rfl⟩
      rw [insert_eq_error_iff.mpr ⟨other, hother, rfl⟩] at hinsert
      cases hinsert
      rfl

theorem load_eq_ok_iff {r after : Registry} {path : String} :
    load disk r path = .ok after ↔ ∃ s, sectionAt disk path = .ok s ∧ r.insert s = .ok after := by
  simp only [load, bind_eq_ok_iff, located_eq_ok_iff]

theorem load_eq_error_iff {r : Registry} {path : String} {e : Error} :
    load disk r path = .error e ↔ Offends r.sections path (sectionAt disk path) e := by
  simp only [load, bind_eq_error_iff, located_eq_error_iff]
  constructor
  · rintro (hread | ⟨s, hread, cause, hclash, rfl⟩)
    · rw [hread]
      exact .unread e
    · rw [hread]
      exact .clash hclash
  · generalize sectionAt disk path = read
    rintro (_ | hclash)
    · exact .inl rfl
    · exact .inr ⟨_, rfl, _, hclash, rfl⟩

/-! ### One file after another -/

theorem run_insertFiles (r : Registry) (paths : List String) :
    Id.run (insertFiles disk r paths) = paths.foldlM (load disk) r := by
  induction paths generalizing r with
  | nil => rfl
  | cons path paths ih =>
    rw [List.foldlM_cons, ← run_insertFile, insertFiles]
    generalize insertFile disk r path = filled
    cases filled with
    | error e => rfl
    | ok r => exact ih r

/-- The files that patterns find are taken one after the other. -/
theorem run_insertMatching (r : Registry) {folder : String} {endings : List String}
    {found : String → List String}
    (h : ∀ ending ∈ endings, Id.run (disk.matching (folder ++ "/" ++ ("*" ++ ending))) = .ok (found ending)) :
    Id.run (insertMatching disk folder r (endings.map ("*" ++ ·))) =
      (endings.flatMap found).foldlM (load disk) r := by
  induction endings generalizing r with
  | nil => rfl
  | cons ending endings ih =>
    rw [List.forall_mem_cons] at h
    rw [List.flatMap_cons, List.foldlM_append, ← run_insertFiles, List.map_cons, insertMatching]
    simp only [Id.run_bind, h.1]
    generalize insertFiles disk r (found ending) = filled
    cases filled with
    | error e => rfl
    | ok r => exact ih r h.2

theorem fill_concat (paths : List String) (path : String) :
    fill disk (paths ++ [path]) = fill disk paths >>= fun r => load disk r path := by
  rw [fill, List.foldlM_append]
  refine bind_congr fun r => ?_
  show (load disk r path >>= pure) = _
  rw [bind_pure]

/-- Files are indexed if each holds a section, and these find their places. -/
theorem fill_eq_ok_iff {paths : List String} {r : Registry} :
    fill disk paths = .ok r ↔
      ∃ sections, paths.map (sectionAt disk) = sections.map .ok ∧ ofList sections = .ok r := by
  induction paths using List.reverseRecOn generalizing r with
  | nil =>
    constructor
    · rintro ⟨⟩
      exact ⟨[], rfl, rfl⟩
    · rintro ⟨sections, hhold, hr⟩
      obtain rfl := List.map_eq_nil_iff.mp hhold.symm
      exact hr
  | append_singleton paths path ih =>
    rw [fill_concat, bind_eq_ok_iff]
    simp only [ih, load_eq_ok_iff]
    constructor
    · rintro ⟨filled, ⟨sections, hhold, hfilled⟩, s, hread, hinsert⟩
      refine ⟨sections ++ [s], ?_, ?_⟩
      · rw [List.map_append, List.map_append, hhold, List.map_singleton, List.map_singleton, hread]
      · rw [ofList_concat, hfilled]
        exact hinsert
    · rintro ⟨sections, hhold, hr⟩
      rw [List.map_append, List.map_singleton] at hhold
      obtain ⟨before, last, rfl, hbefore, hlast⟩ := List.map_eq_append_iff.mp hhold.symm
      obtain ⟨s, rfl, hs⟩ := List.map_eq_singleton_iff.mp hlast
      rw [ofList_concat] at hr
      obtain ⟨filled, hfilled, hinsert⟩ := ok_of_bind hr
      exact ⟨filled, ⟨before, hbefore.symm, hfilled⟩, s, hs.symm, hinsert⟩

/-- What is reported is the first file that finds no place. -/
theorem fill_eq_error_iff {paths : List String} {e : Error} :
    fill disk paths = .error e ↔
      ∃ before path after sections, paths = before ++ path :: after ∧
        before.map (sectionAt disk) = sections.map .ok ∧ WellNamed sections ∧
        Offends sections path (sectionAt disk path) e := by
  constructor
  · intro h
    induction paths using List.reverseRecOn with
    | nil => cases h
    | append_singleton paths path ih =>
      rw [fill_concat, bind_eq_error_iff] at h
      rcases h with h | ⟨filled, hfilled, h⟩
      · obtain ⟨before, first, after, sections, rfl, hrest⟩ := ih h
        exact ⟨before, first, after ++ [path], sections, by simp, hrest⟩
      · obtain ⟨sections, hhold, hsections⟩ := (fill_eq_ok_iff disk).mp hfilled
        obtain ⟨hwell, hperm⟩ := ofList_ok hsections
        rw [load_eq_error_iff] at h
        exact ⟨paths, path, [], sections, rfl, hhold, hwell, h.perm hperm.symm⟩
  · rintro ⟨before, path, after, sections, rfl, hhold, hwell, hoffends⟩
    obtain ⟨filled, hfilled⟩ := ofList_of_wellNamed hwell
    have hbefore := (fill_eq_ok_iff disk).mpr ⟨sections, hhold, hfilled⟩
    have hload := (load_eq_error_iff disk).mpr (hoffends.perm (ofList_ok hfilled).2)
    rw [fill, List.foldlM_append, ← fill, hbefore]
    refine bind_eq_error_iff.mpr (.inr ⟨filled, rfl, ?_⟩)
    rw [List.foldlM_cons]
    exact bind_eq_error_iff.mpr (.inl hload)

/-! ### The files of a folder -/

/-- The endings that files of sections have, in the order in which they are looked for. -/
def endings : List String := [".yml", ".yaml", ".json"]

/-- The names of the files of sections in a folder: for one ending after the other, in order. -/
def fileNames (path : String) : List String := endings.flatMap (disk.namesEnding path)

/-- The section in a file of a folder. -/
def sectionIn (path name : String) : Result Definition :=
  Definition.ofFile name (Id.run (disk.readText (Files.inside path name)))

variable {disk}

theorem endings_plain : ∀ ending ∈ endings,
    (∀ c ∈ ending.toList, Files.Pattern.IsPlain c) ∧ '/' ∉ ending.toList := by
  have hall : ∀ ending ∈ endings, (ending.toList.all fun c => decide (Files.Pattern.IsPlain c)) = true ∧
      '/' ∉ ending.toList := by decide
  exact fun ending hending =>
    ⟨Files.Pattern.plain_of_all (hall ending hending).1, (hall ending hending).2⟩

theorem ofFolder_eq (hdisk : disk.Sound) {path : String} (hplain : Plain path)
    (hfolder : disk.isFolder path = true) :
    Id.run (ofFolder disk path) =
      fill disk ((fileNames disk path).map (Files.filePath path)) := by
  have hpatterns : filePatterns = endings.map ("*" ++ ·) := by decide
  have hmatching : ∀ ending ∈ endings, Id.run (disk.matching (path ++ "/" ++ ("*" ++ ending))) =
      .ok ((disk.namesEnding path ending).map (Files.filePath path)) := fun ending hending =>
    Disk.matching_ending hdisk hplain hfolder (endings_plain ending hending).1
      (endings_plain ending hending).2
  rw [fill, fileNames, List.map_flatMap, ← run_insertMatching disk empty hmatching, ← hpatterns]
  exact if_pos hfolder

/-- The name of a file of a section leads to it. -/
theorem of_mem_fileNames (hdisk : disk.Sound) {path name : String} (h : name ∈ fileNames disk path) :
    '/' ∉ name.toList ∧ Files.leads name = true := by
  obtain ⟨ending, hending, hname⟩ := List.mem_flatMap.mp h
  obtain ⟨hmem, hends⟩ := List.mem_filter.mp hname
  refine ⟨hdisk.named name (List.mem_mergeSort.mp hmem), ?_⟩
  have hshort : ∀ ending ∈ endings, ∀ name ∈ ["", "."], ¬ ending.toList <:+ name.toList := by decide
  have hlong : name ∉ ["", "."] := fun hname => hshort ending hending name hname (of_decide_eq_true hends)
  simpa [Files.leads] using hlong

theorem sectionAt_filePath (hdisk : disk.Sound) {path : String} (hplain : Plain path) {name : String}
    (hname : name ∈ fileNames disk path) :
    sectionAt disk (Files.filePath path name) = sectionIn disk path name := by
  obtain ⟨hslash, hleads⟩ := of_mem_fileNames hdisk hname
  rw [sectionAt, sectionIn, Disk.readText, Disk.readText, hdisk.read_filePath hplain hslash hleads]
  rw [Definition.ofFile.eq_def, Definition.ofFile.eq_def, Disk.extension?_filePath path hslash]

theorem map_sectionAt (hdisk : disk.Sound) {path : String} (hplain : Plain path) {names : List String}
    (hnames : ∀ name ∈ names, name ∈ fileNames disk path) :
    (names.map (Files.filePath path)).map (sectionAt disk) = names.map (sectionIn disk path) := by
  rw [List.map_map]
  exact List.map_congr_left fun name hname => sectionAt_filePath hdisk hplain (hnames name hname)

/-- **A folder is indexed by the files in it.** If no wildcard is spliced in with its path, the files are
those of the folder itself that end in `.yml`, `.yaml` or `.json`. They are indexed exactly if each holds a
section and these are well named. The registry is then that of the sections, in whatever order they are
given. Otherwise the first file that cannot be read as a section, or whose section clashes with those of
the files before it, is what is reported, a clash with the path of the file. -/
theorem folder_indexed (hdisk : disk.Sound) {path : String} (hplain : Plain path)
    (hfolder : disk.isFolder path = true) :
    ((∃ r, Id.run (ofFolder disk path) = .ok r) ↔
      ∃ sections, (fileNames disk path).map (sectionIn disk path) = sections.map .ok ∧
        WellNamed sections) ∧
    (∀ r sections, Id.run (ofFolder disk path) = .ok r →
      (fileNames disk path).map (sectionIn disk path) = sections.map .ok →
      r.sections.Perm sections ∧
      ∀ others : List Definition, others.Perm sections → ofList others = .ok r) ∧
    ∀ e, Id.run (ofFolder disk path) = .error e ↔
      ∃ before name after sections, fileNames disk path = before ++ name :: after ∧
        before.map (sectionIn disk path) = sections.map .ok ∧ WellNamed sections ∧
        Offends sections (Files.filePath path name) (sectionIn disk path name) e := by
  have hok (r : Registry) : Id.run (ofFolder disk path) = .ok r ↔
      ∃ sections, (fileNames disk path).map (sectionIn disk path) = sections.map .ok ∧
        ofList sections = .ok r := by
    rw [ofFolder_eq hdisk hplain hfolder, fill_eq_ok_iff,
      map_sectionAt hdisk hplain fun name hname => hname]
  refine ⟨?_, fun r sections hr hhold => ?_, fun e => ?_⟩
  · constructor
    · rintro ⟨r, hr⟩
      obtain ⟨sections, hhold, hsections⟩ := (hok r).mp hr
      exact ⟨sections, hhold, (ofList_ok hsections).1⟩
    · rintro ⟨sections, hhold, hwell⟩
      obtain ⟨r, hr⟩ := ofList_of_wellNamed hwell
      exact ⟨r, (hok r).mpr ⟨sections, hhold, hr⟩⟩
  · obtain ⟨sections', hhold', hsections⟩ := (hok r).mp hr
    have hinjective : Function.Injective (Except.ok : Definition → Result Definition) :=
      fun _ _ h => Except.ok.inj h
    obtain rfl := hinjective.list_map (hhold.symm.trans hhold')
    obtain ⟨hwell, hperm⟩ := ofList_ok hsections
    refine ⟨hperm, fun others hothers => ?_⟩
    obtain ⟨other, hother⟩ := ofList_of_wellNamed (hwell.perm hothers)
    rw [hother, eq_of_perm ((ofList_ok hother).2.trans (hothers.trans hperm.symm))]
  · rw [ofFolder_eq hdisk hplain hfolder, fill_eq_error_iff]
    have hread {before : List String} {name : String} {after : List String}
        (h : fileNames disk path = before ++ name :: after) :
        (before.map (Files.filePath path)).map (sectionAt disk) = before.map (sectionIn disk path) ∧
          sectionAt disk (Files.filePath path name) = sectionIn disk path name := by
      refine ⟨map_sectionAt hdisk hplain fun name hname => ?_, sectionAt_filePath hdisk hplain ?_⟩
      · rw [h]
        exact List.mem_append_left _ hname
      · rw [h]
        exact List.mem_append_right _ List.mem_cons_self
    constructor
    · rintro ⟨_, _, _, sections, hpaths, hhold, hwell, hoffends⟩
      obtain ⟨before, rest, hnames, rfl, hrest⟩ := List.map_eq_append_iff.mp hpaths
      obtain ⟨name, after, rfl, rfl, rfl⟩ := List.map_eq_cons_iff.mp hrest
      rw [(hread hnames).1] at hhold
      rw [(hread hnames).2] at hoffends
      exact ⟨before, name, after, sections, hnames, hhold, hwell, hoffends⟩
    · rintro ⟨before, name, after, sections, hnames, hhold, hwell, hoffends⟩
      rw [← (hread hnames).1] at hhold
      rw [← (hread hnames).2] at hoffends
      refine ⟨_, _, after.map (Files.filePath path), sections, ?_, hhold, hwell, hoffends⟩
      rw [hnames, List.map_append, List.map_cons]

/-! ### Two folders -/

def textFile (text : String) : Files.Entry := .file text.toUTF8

-- The folder is named with a slash behind it. The section in the folder below is none of its own.
def kept : Files.Entry :=
  .folder [("kept", .folder [("a.json", textFile "\x7b\"name\":\"sla\",\"query\":\x7b\x7d\x7d"),
    ("b.yml", textFile "name: abandon\nquery: \x7b\x7d\n"), ("notes.txt", textFile "none"),
    ("old", .folder [("a.yml", textFile "name: sla\nquery: \x7b\x7d\n")])])]

theorem kept_named : kept.Named := by
  have hold : (Files.Entry.folder [("a.yml", textFile "name: sla\nquery: \x7b\x7d\n")]).Named :=
    .folder (by decide) (List.forall_mem_singleton.mpr (.file _))
  refine .folder (by decide) (List.forall_mem_singleton.mpr (.folder (by decide) ?_))
  simp only [List.forall_mem_cons]
  exact ⟨.file _, .file _, .file _, hold, List.forall_mem_nil _⟩

theorem named_of_toOption {read : Result Definition} {name : String}
    (h : read.toOption.map Definition.name = some name) : ∃ s, read = .ok s ∧ s.name = name := by
  cases read with
  | error e => cases h
  | ok s => exact ⟨s, rfl, Option.some.inj h⟩

theorem kept_indexed : ∃ r s t, Id.run (ofFolder kept.disk "kept/") = .ok r ∧
    sectionIn kept.disk "kept/" "b.yml" = .ok s ∧ s.name = "abandon" ∧
    sectionIn kept.disk "kept/" "a.json" = .ok t ∧ t.name = "sla" ∧ r.sections.Perm [s, t] := by
  have hplain : Plain "kept/" := ⟨Files.Pattern.plain_of_all (by decide), by decide, by decide⟩
  have hnames : fileNames kept.disk "kept/" = ["b.yml", "a.json"] := by
    have hsorted : (Id.run (kept.disk.names "kept/")).mergeSort = ["a.json", "b.yml", "notes.txt", "old"] :=
      List.mergeSort_of_pairwise (by decide +kernel)
    have hending (ending : String) : kept.disk.namesEnding "kept/" ending =
        ["a.json", "b.yml", "notes.txt", "old"].filter fun name => ending.toList <:+ name.toList :=
      congrArg (List.filter _) hsorted
    rw [fileNames, funext hending]
    decide +kernel
  obtain ⟨s, hs, hsname⟩ := named_of_toOption
    (show (sectionIn kept.disk "kept/" "b.yml").toOption.map Definition.name = some "abandon" by
      decide +kernel)
  obtain ⟨t, ht, htname⟩ := named_of_toOption
    (show (sectionIn kept.disk "kept/" "a.json").toOption.map Definition.name = some "sla" by
      decide +kernel)
  have hhold : (fileNames kept.disk "kept/").map (sectionIn kept.disk "kept/") = [s, t].map .ok := by
    rw [hnames, List.map_cons, List.map_cons, hs, ht]
    rfl
  have hwell : WellNamed [s, t] := by
    constructor
    · simp only [List.forall_mem_cons, hsname, htname]
      exact ⟨by decide +kernel, by decide +kernel, List.forall_mem_nil _⟩
    · rw [List.map_cons, List.map_cons, hsname, htname]
      decide
  obtain ⟨hok, hholds, -⟩ := folder_indexed (Files.Entry.disk_sound kept_named) hplain rfl
  obtain ⟨r, hr⟩ := hok.mpr ⟨[s, t], hhold, hwell⟩
  exact ⟨r, s, t, hr, hs, hsname, ht, htname, (hholds r [s, t] hr hhold).1⟩

/-- A folder whose name is a pattern, and the only file in it. -/
def bracketed : Files.Entry := .folder [("[d]", .folder [("a.yml", textFile "name: sla\nquery: \x7b\x7d\n")])]

theorem bracketed_unseen :
    Id.run (bracketed.disk.isFolder "[d]") = true ∧ Id.run (bracketed.disk.names "[d]") = ["a.yml"] ∧
      (∃ s, sectionIn bracketed.disk "[d]" "a.yml" = .ok s ∧ s.name = "sla") ∧
      Id.run (ofFolder bracketed.disk "[d]") = .ok empty := by
  refine ⟨by decide, by decide, named_of_toOption (by decide +kernel), ?_⟩
  -- No folder is called `d`, which is what the brackets ask for.
  have hunmatched (fuel : Nat) (rest : List Files.Pattern) :
      Id.run (bracketed.disk.beyond (fuel + 2) ([.oneOf [('d', 'd')]] :: rest) true ".") = [] :=
    Disk.beyond_unmatched fuel rest rfl (by decide) (by decide) (by decide)
  have hread : ∀ ending ∈ endings,
      Files.Pattern.ofText ("[d]" ++ "/" ++ ("*" ++ ending)) =
          .ok (.oneOf [('d', 'd')] :: .char '/' :: Files.Pattern.ofEnding ending.toList) ∧
        (Files.pathNames ("[d]" ++ "/" ++ ("*" ++ ending))).mapM Files.Pattern.ofText =
          .ok [[.oneOf [('d', 'd')]], Files.Pattern.ofEnding ending.toList] ∧
        Files.absolute ("[d]" ++ "/" ++ ("*" ++ ending)) = false ∧
        Files.start ("[d]" ++ "/" ++ ("*" ++ ending)) = "." := by
    decide +kernel
  have hmatching : ∀ ending ∈ endings,
      Id.run (bracketed.disk.matching ("[d]" ++ "/" ++ ("*" ++ ending))) = .ok [] := fun ending hending => by
    obtain ⟨hwhole, hnames, habsolute, hstart⟩ := hread ending hending
    rw [Disk.matching_of_read hwhole hnames, habsolute, hstart]
    exact congrArg Except.ok (hunmatched 4096 _)
  have hpatterns : filePatterns = endings.map ("*" ++ ·) := by decide
  have hload := run_insertMatching bracketed.disk empty hmatching
  rw [← hpatterns] at hload
  exact hload

end Registry

end BucketQuery.Section
