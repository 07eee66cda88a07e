import BucketQuery.Files.Folder
import BucketQuery.Proofs.Files.Walk

/-! A folder held as a value is a disk like any other.

Blank names and dots are passed over in a folder, and nothing goes on behind a file, so where names lead is
told by those that lead elsewhere (`folder?_filter`, `follow_file`). Main statement, `disk_sound`. -/
namespace BucketQuery.Files.Entry

/-! ### Names -/

/-- No name in the folders has a slash in it. -/
inductive Named : Entry → Prop where
  | file (bytes : ByteArray) : Named (.file bytes)
  | folder {entries : List (String × Entry)} (names : ∀ e ∈ entries, '/' ∉ e.1.toList)
    (within : ∀ e ∈ entries, Named e.2) : Named (.folder entries)

theorem Named.lookup {entries : List (String × Entry)} (h : Named (.folder entries)) {name : String}
    {entry : Entry} (hlookup : entries.lookup name = some entry) : Named entry := by
  cases h with
  | folder _ within =>
    obtain ⟨before, after, rfl, -⟩ := List.lookup_eq_some_iff.mp hlookup
    exact within (name, entry) (by simp)

/-! ### Following names -/

/-- What is in a folder. -/
def entries? : Entry → Option (List (String × Entry))
  | .folder entries => some entries
  | .file _ => none

/-- What is in the folder that names lead to. -/
def folder? (above : List Entry) (here : Entry) (names : List String) : Option (List (String × Entry)) :=
  (follow above here names).toOption.bind entries?

theorem follow_skip {name : String} (h : ¬ leads name = true) (above : List Entry)
    (entries : List (String × Entry)) (rest : List String) :
    follow above (.folder entries) (name :: rest) = follow above (.folder entries) rest := by
  have hskip : (name == "" || name == ".") = true := by
    rw [leads] at h
    grind
  rw [follow.eq_def]
  exact if_pos hskip

/-- A name that leads elsewhere does so, or nowhere, whatever comes behind it. -/
theorem follow_leads {name : String} (h : leads name = true) (above : List Entry)
    (entries : List (String × Entry)) :
    (∃ fault, ∀ rest, follow above (.folder entries) (name :: rest) = .error fault) ∨
      ∃ above' here', ∀ rest,
        follow above (.folder entries) (name :: rest) = follow above' here' rest := by
  have hskip : ¬ (name == "" || name == ".") = true := by
    rw [leads] at h
    grind
  by_cases hup : (name == "..") = true
  · cases above with
    | nil =>
      refine .inr ⟨[], .folder [], fun rest => ?_⟩
      rw [follow.eq_def]
      exact (if_neg hskip).trans (if_pos hup)
    | cons up above =>
      refine .inr ⟨above, up, fun rest => ?_⟩
      rw [follow.eq_def]
      exact (if_neg hskip).trans (if_pos hup)
  · cases hlookup : entries.lookup name with
    | none =>
      refine .inl ⟨.notFound, fun rest => ?_⟩
      rw [follow.eq_def]
      refine (if_neg hskip).trans ((if_neg hup).trans ?_)
      rw [hlookup]
    | some entry =>
      refine .inr ⟨.folder entries :: above, entry, fun rest => ?_⟩
      rw [follow.eq_def]
      refine (if_neg hskip).trans ((if_neg hup).trans ?_)
      rw [hlookup]

/-- Only the names that lead elsewhere tell which folder it is. -/
theorem folder?_filter (above : List Entry) (here : Entry) (names : List String) :
    folder? above here (names.filter leads) = folder? above here names := by
  induction names generalizing above here with
  | nil => rfl
  | cons name rest ih =>
    rw [List.filter_cons]
    cases here with
    | file bytes =>
      split
      · rfl
      · rw [ih]
        cases rest <;> rfl
    | folder entries =>
      split
      · rename_i hleads
        rcases follow_leads hleads above entries with ⟨fault, hfault⟩ | ⟨above', here', hnext⟩
        · rw [folder?, folder?, hfault, hfault]
        · rw [folder?, folder?, hnext, hnext]
          exact ih above' here'
      · rename_i hskip
        rw [ih, folder?, folder?, follow_skip hskip]

/-- What is at the last of the names is told by the others that lead elsewhere, too. -/
theorem follow_filter (above : List Entry) (here : Entry) (names : List String) (name : String) :
    follow above here (names.filter leads ++ [name]) = follow above here (names ++ [name]) := by
  induction names generalizing above here with
  | nil => rfl
  | cons first rest ih =>
    rw [List.filter_cons]
    cases here with
    | file bytes =>
      split
      · rfl
      · rw [ih]
        cases rest <;> rfl
    | folder entries =>
      split
      · rename_i hleads
        rcases follow_leads hleads above entries with ⟨fault, hfault⟩ | ⟨above', here', hnext⟩
        · rw [List.cons_append, List.cons_append, hfault, hfault]
        · rw [List.cons_append, List.cons_append, hnext, hnext, ih]
      · rename_i hskip
        rw [ih, List.cons_append, follow_skip hskip]

/-- What is behind a further name is in a folder. -/
theorem folder?_above {above : List Entry} {here : Entry} {names : List String} {name : String}
    (h : (folder? above here (names ++ [name])).isSome) : (folder? above here names).isSome := by
  induction names generalizing above here with
  | nil =>
    cases here with
    | file bytes => cases h
    | folder entries => rfl
  | cons first rest ih =>
    cases here with
    | file bytes => cases h
    | folder entries =>
      rw [folder?, List.cons_append] at h
      rw [folder?]
      by_cases hleads : leads first = true
      · rcases follow_leads hleads above entries with ⟨fault, hfault⟩ | ⟨above', here', hnext⟩
        · rw [hfault] at h
          cases h
        · rw [hnext] at h ⊢
          exact ih h
      · rw [follow_skip hleads] at h ⊢
        exact ih h

/-! ### The disk -/

variable (root : Entry)

theorem atPath_absolute {path : String} (h : absolute path = true) :
    root.atPath path = .error .notFound := by
  obtain ⟨cs, hcs⟩ := List.head?_eq_some_iff.mp (of_decide_eq_true h)
  rw [atPath, hcs]
  rfl

theorem atPath_relative {path : String} (hne : path ≠ "") (h : absolute path = false) :
    root.atPath path = follow [] root (namesOf path.toList) := by
  obtain ⟨c, cs, hcs⟩ := List.exists_cons_of_ne_nil (toList_ne_nil hne)
  have hslash : c ≠ '/' := by
    rintro rfl
    rw [absolute, hcs] at h
    cases h
  rw [atPath, hcs]
  split
  · rename_i hnil
    cases hnil
  · rename_i hcons
    exact absurd (List.cons.inj hcons).1 hslash
  · rfl

/-- The folder at a path. -/
def folderAt (path : String) : Option (List (String × Entry)) := (root.atPath path).toOption.bind entries?

theorem disk_isFolder (path : String) : root.disk.isFolder path = (root.folderAt path).isSome := by
  show (root.atPath path).toOption.any isFolder = _
  rw [folderAt]
  cases (root.atPath path).toOption with
  | none => rfl
  | some entry => cases entry <;> rfl

theorem disk_names (path : String) :
    root.disk.names path = ((root.folderAt path).map (·.map Prod.fst)).getD [] := by
  show ((root.atPath path).toOption.map names).getD [] = _
  rw [folderAt]
  cases (root.atPath path).toOption with
  | none => rfl
  | some entry => cases entry <;> rfl

theorem folderAt_eq {path : String} (hne : path ≠ "") :
    root.folderAt path = if absolute path then none else folder? [] root (steps path) := by
  rw [folderAt]
  split
  · rename_i h
    rw [atPath_absolute root h]
    rfl
  · rename_i h
    rw [atPath_relative root hne (Bool.eq_false_iff.mpr h), steps, folder?_filter, folder?]

theorem folderAt_same {path other : String} (hpath : path ≠ "") (hother : other ≠ "")
    (habsolute : absolute path = absolute other) (hsteps : steps path = steps other) :
    root.folderAt path = root.folderAt other := by
  rw [folderAt_eq root hpath, folderAt_eq root hother, habsolute, hsteps]

theorem folderAt_above {path name : String} (hne : path ≠ "") (hname : '/' ∉ name.toList)
    (h : (root.folderAt (inside path name)).isSome) : (root.folderAt path).isSome := by
  rw [folderAt_eq root (inside_ne hne), absolute_inside hne, steps_inside hname] at h
  rw [folderAt_eq root hne]
  split at h
  · cases h
  · rename_i hrelative
    rw [if_neg hrelative]
    cases hleads : leads name with
    | true => exact folder?_above (by rwa [List.filter_cons, if_pos hleads] at h)
    | false => rwa [List.filter_cons, hleads, if_neg Bool.false_ne_true, List.filter_nil, List.append_nil] at h

/-- What is at a path whose last name leads elsewhere. -/
theorem atPath_ends {path : String} (h : Ends path) :
    root.atPath path =
      if absolute path then .error .notFound else follow [] root (steps path) := by
  have hne := h.path_ne
  obtain ⟨before, name, hnames, hleads⟩ := h
  split
  · rename_i habsolute
    exact atPath_absolute root habsolute
  · rename_i hrelative
    rw [atPath_relative root hne (Bool.eq_false_iff.mpr hrelative), steps, hnames, List.filter_append,
      List.filter_cons, if_pos hleads, List.filter_nil, follow_filter]

theorem disk_read (path : String) :
    root.disk.read path = ((root.atPath path).bind bytes).mapError PathFault.message := rfl

theorem Named.follow {above : List Entry} {here : Entry} (habove : ∀ e ∈ above, Named e)
    (hhere : Named here) {names : List String} {entry : Entry}
    (h : Entry.follow above here names = .ok entry) : Named entry := by
  fun_induction Entry.follow above here names with
  | case1 above here =>
    cases h
    exact hhere
  | case2 => cases h
  | case3 above name rest entries hskip ih => exact ih habove hhere h
  | case4 name rest entries hskip hup up above ih =>
    rw [List.forall_mem_cons] at habove
    exact ih habove.2 habove.1 h
  | case5 name rest entries hskip hup ih => exact ih nofun (.folder nofun nofun) h
  | case6 above name rest entries hskip hup entry hlookup ih =>
    exact ih (List.forall_mem_cons.mpr ⟨hhere, habove⟩) (hhere.lookup hlookup) h
  | case7 => cases h

theorem Named.atPath {root : Entry} (h : Named root) {path : String} {entry : Entry}
    (hentry : root.atPath path = .ok entry) : Named entry := by
  rw [Entry.atPath] at hentry
  split at hentry
  · cases hentry
  · cases hentry
  · exact Named.follow (List.forall_mem_nil _) h hentry

theorem Named.slashes {root : Entry} (h : Named root) (path : String) :
    ∀ name ∈ Id.run (root.disk.names path), '/' ∉ name.toList := by
  intro name hname
  rw [disk_names, folderAt] at hname
  cases hentry : root.atPath path with
  | error fault =>
    rw [hentry] at hname
    cases hname
  | ok entry =>
    rw [hentry] at hname
    cases h.atPath hentry with
    | file bytes => cases hname
    | folder names within =>
      obtain ⟨e, he, rfl⟩ := List.mem_map.mp hname
      exact names e he

/-- **A folder held as a value is a disk.** -/
theorem disk_sound {entries : List (String × Entry)} (hroot : Named (.folder entries)) :
    (folder entries).disk.Sound where
  here := rfl
  holds h := by
    rw [disk_isFolder, folderAt] at h
    show (Entry.atPath _ _).toOption.isSome = true
    exact Option.isSome_of_isSome_bind h
  above hne hname h := by
    rw [disk_isFolder] at h ⊢
    exact folderAt_above _ hne hname h
  same hpath hother habsolute hsteps := by
    rw [disk_isFolder, disk_isFolder, disk_names, disk_names, folderAt_same _ hpath hother habsolute hsteps]
    exact ⟨rfl, rfl⟩
  named := hroot.slashes _
  reads habsolute hsteps hpath hother := by
    rw [disk_read, disk_read, atPath_ends _ hpath, atPath_ends _ hother, habsolute, hsteps]

end BucketQuery.Files.Entry
