import BucketQuery.Files.Disk
import BucketQuery.Proofs.Files.Pattern
import Mathlib.Data.List.Basic
import Mathlib.Data.List.TakeWhile

/-! The way to a folder, and the files in it that a pattern matches.

A disk is asked for what is behind a path by the names in the path, one after the other. If none of them
has a wildcard they lead to the folder that the path leads to, whatever blank names and dots there are in
between (`walk_leads`), and the files found are those of this folder whose names match
(`matching_ending`). -/
namespace BucketQuery.Files

/-! ### Paths -/

/-- The path starts at the root and not at the current folder. -/
def absolute (path : String) : Bool := path.toList.head? = some '/'

/-- A name that leads elsewhere. -/
def leads (name : String) : Bool := name ≠ "" && name ≠ "."

/-- The names in a path that lead elsewhere. Paths with the same ones lead to the same place, if they start
at the same. -/
def steps (path : String) : List String := (namesOf path.toList).filter leads

theorem namesOf_append (xs ys : List Char) : namesOf (xs ++ '/' :: ys) = namesOf xs ++ namesOf ys := by
  rw [namesOf, List.splitOn_append_cons_self, List.map_append, namesOf, namesOf]

theorem namesOf_name {name : List Char} (h : '/' ∉ name) : namesOf name = [String.ofList name] := by
  rw [namesOf, List.splitOn_eq_singleton h, List.map_singleton]

/-- Every character of a name is one of the path, and no slash. -/
theorem of_mem_namesOf {path : List Char} {name : String} (h : name ∈ namesOf path) :
    '/' ∉ name.toList ∧ ∀ c ∈ name.toList, c ∈ path := by
  obtain ⟨cs, hcs, rfl⟩ := List.mem_map.mp h
  rw [String.toList_ofList]
  clear h
  induction path generalizing cs with
  | nil =>
    rw [List.splitOn_nil, List.mem_singleton] at hcs
    subst hcs
    exact ⟨List.not_mem_nil, nofun⟩
  | cons c path ih =>
    have hlater : ∀ cs ∈ path.splitOn '/', '/' ∉ cs ∧ ∀ d ∈ cs, d ∈ c :: path := fun cs hcs =>
      ⟨(ih cs hcs).1, fun d hd => List.mem_cons_of_mem c ((ih cs hcs).2 d hd)⟩
    rw [List.splitOn_cons_eq_if_modifyHead] at hcs
    split at hcs
    · rcases List.mem_cons.mp hcs with rfl | hcs
      · exact ⟨List.not_mem_nil, nofun⟩
      · exact hlater cs hcs
    · rename_i hslash
      rw [beq_iff_eq] at hslash
      cases hsplit : path.splitOn '/' with
      | nil => exact absurd hsplit (List.splitOn_ne_nil _ _)
      | cons first later =>
        rw [hsplit] at hcs hlater
        rcases List.mem_cons.mp hcs with rfl | hcs
        · obtain ⟨hfree, hmem⟩ := hlater first List.mem_cons_self
          exact ⟨fun h => (List.mem_cons.mp h).elim (fun h => hslash h.symm) hfree,
            List.forall_mem_cons.mpr ⟨List.mem_cons_self, hmem⟩⟩
        · exact hlater cs (List.mem_cons_of_mem first hcs)

theorem toList_ne_nil {path : String} (h : path ≠ "") : path.toList ≠ [] :=
  fun hnil => h (String.toList_eq_nil_iff.mp hnil)

/-- Whether a slash is put in between or one is already there, the way goes on from the folder. -/
theorem inside_names (folder name : String) :
    ∃ cs, (folder.toList = cs ∨ folder.toList = cs ++ ['/']) ∧
      (inside folder name).toList = cs ++ '/' :: name.toList := by
  by_cases hslash : folder.toList.getLast? = some '/'
  · obtain ⟨cs, hcs⟩ := List.getLast?_eq_some_iff.mp hslash
    refine ⟨cs, .inr hcs, ?_⟩
    rw [inside, if_pos hslash, String.toList_append, hcs, List.append_assoc]
    rfl
  · refine ⟨folder.toList, .inl rfl, ?_⟩
    rw [inside, if_neg hslash, String.toList_append, String.toList_append, List.append_assoc]
    rfl

theorem inside_ne {folder name : String} (h : folder ≠ "") : inside folder name ≠ "" := by
  intro hnil
  have hchars := congrArg String.toList hnil
  rw [inside] at hchars
  split at hchars
  · rw [String.toList_append] at hchars
    exact toList_ne_nil h (List.append_eq_nil_iff.mp hchars).1
  · rw [String.toList_append, String.toList_append] at hchars
    exact toList_ne_nil h (List.append_eq_nil_iff.mp (List.append_eq_nil_iff.mp hchars).1).1

theorem absolute_append {path : String} (h : path ≠ "") (rest : String) :
    absolute (path ++ rest) = absolute path := by
  have hhead : (path ++ rest).toList.head? = path.toList.head? := by
    rw [String.toList_append, List.head?_append_of_ne_nil _ (toList_ne_nil h)]
  rw [absolute, absolute, hhead]

theorem absolute_inside {folder : String} (h : folder ≠ "") (name : String) :
    absolute (inside folder name) = absolute folder := by
  rw [inside]
  split
  · exact absolute_append h name
  · rw [String.append_assoc, absolute_append h]

theorem steps_inside {folder name : String} (hname : '/' ∉ name.toList) :
    steps (inside folder name) = steps folder ++ [name].filter leads := by
  have hblank : (namesOf []).filter leads = [] := by decide
  obtain ⟨cs, hfolder, hinside⟩ := inside_names folder name
  have hsteps : steps folder = (namesOf cs).filter leads := by
    rcases hfolder with hfolder | hfolder
    · rw [steps, hfolder]
    · rw [steps, hfolder, namesOf_append, List.filter_append, hblank, List.append_nil]
  rw [steps, hinside, namesOf_append, namesOf_name hname, List.filter_append, String.ofList_toList,
    hsteps]

/-- The last name in a path leads elsewhere, as that of a file does. -/
def Ends (path : String) : Prop :=
  ∃ before name, namesOf path.toList = before ++ [name] ∧ leads name = true

theorem Ends.path_ne {path : String} (h : Ends path) : path ≠ "" := by
  obtain ⟨before, name, hnames, hleads⟩ := h
  rintro rfl
  have hblank : namesOf "".toList = [] ++ [""] := by decide
  obtain ⟨-, hname⟩ := List.append_inj' (hblank.symm.trans hnames) rfl
  rw [← List.singleton_inj.mp hname] at hleads
  exact absurd hleads (by decide)

theorem ends_name {name : String} (hname : '/' ∉ name.toList) (h : leads name = true) : Ends name :=
  ⟨[], name, by rw [namesOf_name hname, String.ofList_toList, List.nil_append], h⟩

theorem ends_inside {name : String} (folder : String) (hname : '/' ∉ name.toList)
    (h : leads name = true) : Ends (inside folder name) := by
  obtain ⟨cs, -, hinside⟩ := inside_names folder name
  exact ⟨namesOf cs, name,
    by rw [hinside, namesOf_append, namesOf_name hname, String.ofList_toList], h⟩

/-! ### The way -/

/-- The names of a path behind the place where it starts. -/
def pathNames (path : String) : List String :=
  namesOf (if absolute path then path.toList.drop 1 else path.toList)

/-- Where a path starts. -/
def start (path : String) : String := if absolute path then "/" else "."

/-- The path of a name inside a folder. The current folder is not written. -/
def onward (here : Bool) (folder name : String) : String := if here then name else inside folder name

/-- The way from a folder by names, as it is written, and whether it is still the current folder. -/
def walk (here : Bool) (folder : String) : List String → Bool × String
  | [] => (here, folder)
  | name :: rest => walk (here && name == ".") (onward here folder name) rest

/-- Names that lead on: none of them has a slash in it, and the current folder is not left by a blank one. -/
structure Ways (here : Bool) (folder : String) (names : List String) : Prop where
  slashes : ∀ name ∈ names, '/' ∉ name.toList
  current : here = true → folder = "." ∧ (names.dropWhile (· == ".")).head? ≠ some ""
  folder_ne : folder ≠ ""

theorem Ways.cons {here : Bool} {folder name : String} {rest : List String}
    (h : Ways here folder (name :: rest)) :
    Ways (here && name == ".") (onward here folder name) rest := by
  refine ⟨fun n hn => h.slashes n (List.mem_cons_of_mem name hn), fun hhere => ?_, ?_⟩
  · obtain ⟨rfl, hdot⟩ := (Bool.and_eq_true _ _).mp hhere
    obtain ⟨-, hblank⟩ := h.current rfl
    rw [List.dropWhile_cons, if_pos hdot] at hblank
    exact ⟨(beq_iff_eq.mp hdot), hblank⟩
  · rw [onward]
    split
    · rename_i hhere
      obtain ⟨-, hblank⟩ := h.current hhere
      rintro rfl
      exact hblank rfl
    · exact inside_ne h.folder_ne

/-- Names that lead on do so from any place on the way. -/
theorem Ways.walk {here : Bool} {folder : String} {names rest : List String}
    (h : Ways here folder (names ++ rest)) :
    Ways (Files.walk here folder names).1 (Files.walk here folder names).2 rest := by
  induction names generalizing here folder with
  | nil => exact h
  | cons name names ih => exact ih h.cons

theorem steps_onward {here : Bool} {folder name : String} {rest : List String}
    (h : Ways here folder (name :: rest)) :
    steps (onward here folder name) = steps folder ++ [name].filter leads := by
  have hname := h.slashes name List.mem_cons_self
  rw [onward]
  split
  · rename_i hhere
    have hdot : steps "." = [] := by decide
    rw [(h.current hhere).1, hdot, steps, namesOf_name hname, String.ofList_toList, List.nil_append]
  · exact steps_inside hname

theorem absolute_onward {here : Bool} {folder name : String} {rest : List String}
    (h : Ways here folder (name :: rest)) : absolute (onward here folder name) = absolute folder := by
  have hname := h.slashes name List.mem_cons_self
  rw [onward]
  split
  · rename_i hhere
    have hhead : name.toList.head? ≠ some '/' := fun hslash => hname (List.mem_of_mem_head? hslash)
    rw [(h.current hhere).1, absolute, decide_eq_false hhead]
    rfl
  · exact absolute_inside h.folder_ne name

/-- A way leads where its names say, whatever it looks like. -/
theorem walk_leads {here : Bool} {folder : String} {names : List String} (h : Ways here folder names) :
    (walk here folder names).2 ≠ "" ∧ absolute (walk here folder names).2 = absolute folder ∧
      steps (walk here folder names).2 = steps folder ++ names.filter leads := by
  induction names generalizing here folder with
  | nil => exact ⟨h.folder_ne, rfl, by rw [walk, List.filter_nil, List.append_nil]⟩
  | cons name rest ih =>
    obtain ⟨hne, habsolute, hsteps⟩ := ih h.cons
    refine ⟨hne, ?_, ?_⟩
    · rw [walk, habsolute, absolute_onward h]
    · rw [walk, hsteps, steps_onward h, List.append_assoc, ← List.filter_append]
      rfl

/-! ### The walk on a disk -/

/-- What may be said of any disk: what is behind a path is told by the names that lead there, and what is
inside a folder is behind the path of the folder. -/
structure Disk.Sound (disk : Disk Id) : Prop where
  here : disk.isFolder "." = true
  holds {path : String} : disk.isFolder path = true → disk.holds path = true
  above {path name : String} : path ≠ "" → '/' ∉ name.toList →
    disk.isFolder (inside path name) = true → disk.isFolder path = true
  same {path other : String} : path ≠ "" → other ≠ "" → absolute path = absolute other →
    steps path = steps other → disk.isFolder path = disk.isFolder other ∧ disk.names path = disk.names other
  named {path : String} : ∀ name ∈ Id.run (disk.names path), '/' ∉ name.toList
  reads {path other : String} : absolute path = absolute other → steps path = steps other →
    Ends path → Ends other → disk.read path = disk.read other

namespace Disk

variable {disk : Disk Id}

/-- The way to a folder leads through folders. -/
theorem Sound.onward_isFolder (hdisk : disk.Sound) {here : Bool} {folder : String} {names : List String}
    (h : Ways here folder names) (hend : disk.isFolder (walk here folder names).2 = true) :
    disk.isFolder folder = true := by
  induction names generalizing here folder with
  | nil => exact hend
  | cons name rest ih =>
    have honward := ih h.cons hend
    rw [onward] at honward
    split at honward
    · rename_i hhere
      rw [(h.current hhere).1]
      exact hdisk.here
    · exact hdisk.above h.folder_ne (h.slashes name List.mem_cons_self) honward

/-- A name without wildcards leads on if it is that of a folder. -/
theorem beyond_name (hdisk : disk.Sound) {here : Bool} {folder name : String}
    (hfolder : disk.isFolder folder = true) (hnext : disk.isFolder (onward here folder name) = true)
    (fuel : Nat) (rest : List Pattern) :
    disk.beyond (fuel + 1) (Pattern.ofName name.toList :: rest) here folder =
      disk.beyond fuel rest (here && name == ".") (onward here folder name) := by
  rw [beyond, Pattern.literal?_ofName]
  simp only [String.ofList_toList]
  split
  · exact if_pos hfolder
  · exact if_pos (hdisk.holds hnext)

/-- Names without wildcards lead the way that they say. -/
theorem beyond_names (hdisk : disk.Sound) {here : Bool} {folder : String} {names : List String}
    (h : Ways here folder names) (hend : disk.isFolder (walk here folder names).2 = true) (fuel : Nat)
    (rest : List Pattern) :
    disk.beyond (fuel + names.length) (names.map (fun name => Pattern.ofName name.toList) ++ rest) here
        folder =
      disk.beyond fuel rest (walk here folder names).1 (walk here folder names).2 := by
  induction names generalizing here folder with
  | nil => rfl
  | cons name names ih =>
    have hnext := hdisk.onward_isFolder h.cons hend
    have hfolder := hdisk.onward_isFolder h hend
    rw [List.length_cons, ← Nat.add_assoc, List.map_cons, List.cons_append,
      beyond_name hdisk hfolder hnext, ih h.cons hend, walk]

/-- An entry whose name ends as asked for is found. -/
theorem through_ending (fuel : Nat) (ending : List Char) (name path : String) :
    disk.through (fuel + 2) (Pattern.ofEnding ending) [] name path =
      if ending <:+ name.toList then [path] else [] := by
  have hdeep : Pattern.ofEnding ending ≠ [.deep] := fun h => by cases h
  rw [through, if_neg hdeep]
  simp only [Pattern.admits_ending_iff]
  split
  · rw [beyond]
    · rfl
    all_goals simp
  · rfl

theorem mapM_through (fuel : Nat) (ending : List Char) (pathOf : String → String)
    (names : List String) :
    (Id.run (names.mapM fun name =>
      disk.through (fuel + 2) (Pattern.ofEnding ending) [] name (pathOf name))).flatten =
    (names.filter fun name => ending <:+ name.toList).map pathOf := by
  rw [List.idRun_mapM]
  induction names with
  | nil => rfl
  | cons name names ih =>
    rw [List.map_cons, List.flatten_cons, ih, through_ending, List.filter_cons]
    split
    · rename_i hends
      rw [if_pos (decide_eq_true hends)]
      rfl
    · rename_i hends
      rw [if_neg (by simpa using hends)]
      rfl

/-- A star at the end of the way is for the names in the folder. -/
theorem beyond_ending (fuel : Nat) (ending : List Char) (here : Bool) {folder : String}
    (h : disk.isFolder folder = true) :
    disk.beyond (fuel + 3) [Pattern.ofEnding ending] here folder =
      ((disk.names folder).mergeSort.filter fun name => ending <:+ name.toList).map
        (onward here folder) := by
  have hliteral : Pattern.literal? (Pattern.ofEnding ending) = none := rfl
  have hhead : (Pattern.ofEnding ending).head? ≠ some (.char '.') := fun h => by cases h
  rw [beyond, hliteral]
  simp only [if_neg hhead]
  exact (if_neg (by simp [h])).trans (mapM_through fuel ending (onward here folder) _)

/-- Nothing is behind wildcards that no name in the folder matches. -/
theorem beyond_unmatched (fuel : Nat) {p : Pattern} (rest : List Pattern) {here : Bool} {folder : String}
    (hliteral : Pattern.literal? p = none) (hhead : p.head? ≠ some (.char '.')) (hdeep : p ≠ [.deep])
    (h : ∀ name ∈ Id.run (disk.names folder), Pattern.admits p name.toList = false) :
    disk.beyond (fuel + 2) (p :: rest) here folder = [] := by
  have hthrough : ∀ name ∈ (Id.run (disk.names folder)).mergeSort,
      disk.through (fuel + 1) p rest name (onward here folder name) = [] := fun name hname => by
    rw [through, if_neg hdeep, h name (List.mem_mergeSort.mp hname)]
    rfl
  have hfound : (Id.run ((Id.run (disk.names folder)).mergeSort.mapM fun name =>
      disk.through (fuel + 1) p rest name (onward here folder name))).flatten = [] := by
    rw [List.idRun_mapM, List.flatten_eq_nil_iff]
    intro found hfound
    obtain ⟨name, hname, rfl⟩ := List.mem_map.mp hfound
    exact hthrough name hname
  rw [beyond, hliteral]
  simp only [if_neg hhead]
  by_cases hfolder : disk.isFolder folder = true
  · exact (if_neg (by simp [hfolder])).trans hfound
  · have hnone : disk.isFolder folder = false := eq_false_of_ne_true hfolder
    exact if_pos (by simp [hnone])

end Disk

/-! ### The files of a folder -/

/-- A path that no wildcard makes into a pattern, and that says where it goes. -/
structure Plain (path : String) : Prop where
  chars : ∀ c ∈ path.toList, Pattern.IsPlain c
  path_ne : path ≠ ""
  current : absolute path = false → ((pathNames path).dropWhile (· == ".")).head? ≠ some ""

/-- The way that a path takes. -/
def route (path : String) : Bool × String := walk (!absolute path) (start path) (pathNames path)

/-- The path of a file in a folder, as the files that match a pattern are reported. -/
def filePath (path name : String) : String := onward (route path).1 (route path).2 name

/-- The names in a folder that end in `ending`, in their order. -/
def Disk.namesEnding (disk : Disk Id) (path ending : String) : List String :=
  (disk.names path).mergeSort.filter fun name => ending.toList <:+ name.toList

namespace Plain

variable {path : String}

theorem mem_pathNames (h : Plain path) {name : String} (hname : name ∈ pathNames path) :
    '/' ∉ name.toList ∧ ∀ c ∈ name.toList, Pattern.IsPlain c := by
  obtain ⟨hslash, hmem⟩ := of_mem_namesOf hname
  refine ⟨hslash, fun c hc => h.chars c ?_⟩
  have hc := hmem c hc
  split at hc
  · exact List.mem_of_mem_drop hc
  · exact hc

theorem ways (h : Plain path) : Ways (!absolute path) (start path) (pathNames path) := by
  refine ⟨fun name hname => (h.mem_pathNames hname).1, fun hhere => ?_, ?_⟩
  · have hrelative : absolute path = false := by simpa using hhere
    exact ⟨by rw [start, hrelative]; rfl, h.current hrelative⟩
  · rw [start]
    split <;> decide

/-- The way to a folder goes on to a file in it. -/
theorem ways_behind (h : Plain path) {name : String} (hname : '/' ∉ name.toList)
    (hleads : leads name = true) : Ways (!absolute path) (start path) (pathNames path ++ [name]) := by
  have hways := h.ways
  refine ⟨List.forall_mem_append.mpr ⟨hways.slashes, List.forall_mem_singleton.mpr hname⟩,
    fun hhere => ⟨(hways.current hhere).1, ?_⟩, hways.folder_ne⟩
  obtain ⟨hblank, hdot⟩ : name ≠ "" ∧ name ≠ "." := by simpa [leads] using hleads
  rw [List.dropWhile_append]
  split
  · simpa [hdot] using hblank
  · rename_i hrest
    rw [List.head?_append_of_ne_nil _ (by simpa using hrest)]
    exact (hways.current hhere).2

/-- What a path says is said by its names. -/
theorem pathNames_leads (path : String) : (pathNames path).filter leads = steps path := by
  rw [pathNames, steps]
  split
  · rename_i habsolute
    obtain ⟨cs, hcs⟩ := List.head?_eq_some_iff.mp (of_decide_eq_true habsolute)
    have hblank : (namesOf []).filter leads = [] := by decide
    have happend := namesOf_append [] cs
    rw [List.nil_append] at happend
    rw [hcs, List.drop_succ_cons, List.drop_zero, happend, List.filter_append, hblank, List.nil_append]
  · rfl

/-- The way that a path takes leads to where the path does. -/
theorem route_leads (h : Plain path) :
    (route path).2 ≠ "" ∧ absolute (route path).2 = absolute path ∧ steps (route path).2 = steps path := by
  obtain ⟨hne, habsolute, hsteps⟩ := walk_leads h.ways
  have hstart : absolute (start path) = absolute path ∧ steps (start path) = [] := by
    rw [start]
    split
    · rename_i hslash
      rw [hslash]
      decide
    · rename_i hslash
      rw [Bool.eq_false_iff.mpr hslash]
      decide
  refine ⟨hne, habsolute.trans hstart.1, hsteps.trans ?_⟩
  rw [hstart.2, pathNames_leads, List.nil_append]

end Plain

namespace Disk

variable {disk : Disk Id} {path : String}

theorem Sound.route_isFolder (hdisk : disk.Sound) (h : Plain path) (hfolder : disk.isFolder path = true) :
    disk.isFolder (route path).2 = true := by
  obtain ⟨hne, habsolute, hsteps⟩ := h.route_leads
  rw [(hdisk.same hne h.path_ne habsolute hsteps).1, hfolder]

/-- Behind the names of the path, the pattern has one more. -/
theorem pathNames_pattern (h : Plain path) (ending : String) (hslash : '/' ∉ ending.toList) :
    pathNames (path ++ "/" ++ ("*" ++ ending)) =
      pathNames path ++ [String.ofList ('*' :: ending.toList)] := by
  have hstar : '/' ∉ '*' :: ending.toList := fun hmem =>
    (List.mem_cons.mp hmem).elim (fun heq => absurd heq (by decide)) hslash
  have hchars : (path ++ "/" ++ ("*" ++ ending)).toList = path.toList ++ '/' :: '*' :: ending.toList := by
    simp
  have hhead : absolute (path ++ "/" ++ ("*" ++ ending)) = absolute path := by
    rw [String.append_assoc, absolute_append h.path_ne]
  rw [pathNames, pathNames, hhead, hchars]
  split
  · obtain ⟨c, cs, hcs⟩ := List.exists_cons_of_ne_nil (toList_ne_nil h.path_ne)
    rw [hcs, List.cons_append, List.drop_succ_cons, List.drop_zero, List.drop_succ_cons, List.drop_zero,
      namesOf_append, namesOf_name hstar]
  · rw [namesOf_append, namesOf_name hstar]

/-- The ending of a file is that of its name. -/
theorem extension?_filePath (path : String) {name : String} (hname : '/' ∉ name.toList) :
    extension? (filePath path name) = extension? name := by
  have hbare : name.toList.reverse.takeWhile (· != '/') = name.toList.reverse := by
    rw [List.takeWhile_eq_self_iff]
    intro c hc
    rw [bne_iff_ne]
    rintro rfl
    exact hname (List.mem_reverse.mp hc)
  rw [filePath, onward]
  split
  · rfl
  · obtain ⟨cs, -, hinside⟩ := inside_names (route path).2 name
    have hlast : (inside (route path).2 name).toList.reverse.takeWhile (· != '/') =
        name.toList.reverse := by
      rw [hinside, List.reverse_append, List.reverse_cons, List.append_assoc,
        List.takeWhile_append_of_pos (List.takeWhile_eq_self_iff.mp hbare)]
      exact List.append_nil _
    rw [extension?, extension?, hlast, hbare]

/-- What is read of a file is what is at its name in the folder. -/
theorem Sound.read_filePath (hdisk : disk.Sound) (h : Plain path) {name : String}
    (hname : '/' ∉ name.toList) (hleads : leads name = true) :
    disk.read (filePath path name) = disk.read (inside path name) := by
  obtain ⟨hne, habsolute, hsteps⟩ := h.route_leads
  have hways : Ways (route path).1 (route path).2 [name] := (h.ways_behind hname hleads).walk
  refine hdisk.reads ?_ ?_ ?_ (ends_inside path hname hleads)
  · rw [filePath, absolute_onward hways, habsolute, absolute_inside h.path_ne]
  · rw [filePath, steps_onward hways, hsteps, steps_inside hname]
  · rw [filePath, onward]
    split
    · exact ends_name hname hleads
    · exact ends_inside _ hname hleads

theorem absolute_pattern (h : Plain path) (ending : String) :
    absolute (path ++ "/" ++ ("*" ++ ending)) = absolute path := by
  rw [String.append_assoc, absolute_append h.path_ne]

/-- The names of a path are read as themselves, and what is behind the star as an ending. -/
theorem mapM_ofText {names : List String} (h : ∀ name ∈ names, ∀ c ∈ name.toList, Pattern.IsPlain c)
    {ending : List Char} (hending : ∀ c ∈ ending, Pattern.IsPlain c) :
    (names ++ [String.ofList ('*' :: ending)]).mapM Pattern.ofText =
      .ok (names.map (fun name => Pattern.ofName name.toList) ++ [Pattern.ofEnding ending]) := by
  induction names with
  | nil =>
    rw [List.nil_append, List.mapM_cons, Pattern.ofText_ending hending]
    rfl
  | cons name names ih =>
    rw [List.forall_mem_cons] at h
    rw [List.cons_append, List.mapM_cons, Pattern.ofText_name h.1, ih h.2]
    rfl

/-- A text that is read as a pattern, name by name, is matched from where it starts. -/
theorem matching_of_read {pattern : String} {whole : Pattern} {patterns : List Pattern}
    (hwhole : Pattern.ofText pattern = .ok whole)
    (hnames : (pathNames pattern).mapM Pattern.ofText = .ok patterns) :
    disk.matching pattern =
      .ok (disk.beyond (deepest + patterns.length) patterns (!absolute pattern) (start pattern)) := by
  have hread : (do
      discard (Pattern.ofText pattern)
      (namesOf (if decide (pattern.toList.head? = some '/') then pattern.toList.drop 1
        else pattern.toList)).mapM Pattern.ofText) = Except.ok patterns := by
    rw [hwhole]
    exact hnames
  rw [matching]
  simp only [hread]
  rfl

/-- **The files that a star finds.** They are those of the folder whose names end as asked for, each at the
folder's path. -/
theorem matching_ending (hdisk : disk.Sound) (h : Plain path) (hfolder : disk.isFolder path = true)
    {ending : String} (hending : ∀ c ∈ ending.toList, Pattern.IsPlain c) (hslash : '/' ∉ ending.toList) :
    disk.matching (path ++ "/" ++ ("*" ++ ending)) =
      .ok ((disk.namesEnding path ending).map (filePath path)) := by
  obtain ⟨hne, habsolute, hsteps⟩ := h.route_leads
  have hroute := hdisk.route_isFolder h hfolder
  have hchars : path ++ "/" ++ ("*" ++ ending) =
      String.ofList ((path ++ "/").toList ++ '*' :: ending.toList) := by
    apply String.toList_inj.mp
    simp
  have hplain : ∀ c ∈ (path ++ "/").toList, Pattern.IsPlain c := by
    rw [String.toList_append]
    exact List.forall_mem_append.mpr ⟨h.chars, Pattern.plain_of_all (by decide)⟩
  obtain ⟨whole, hwhole⟩ := Pattern.ofText_within hplain hending
  rw [← hchars] at hwhole
  have hnames := mapM_ofText (fun name hname => (h.mem_pathNames hname).2) hending
  rw [← pathNames_pattern h ending hslash] at hnames
  have hstart : start (path ++ "/" ++ ("*" ++ ending)) = start path := by
    rw [start, absolute_pattern h, start]
  rw [matching_of_read hwhole hnames, absolute_pattern h, hstart, List.length_append, List.length_map,
    ← Nat.add_assoc, Nat.add_right_comm]
  refine congrArg Except.ok ((beyond_names hdisk h.ways hroute (4094 + 3) _).trans ?_)
  refine (beyond_ending 4094 ending.toList _ hroute).trans ?_
  rw [namesEnding, ← (hdisk.same hne h.path_ne habsolute hsteps).2]
  rfl

end Disk

end BucketQuery.Files
