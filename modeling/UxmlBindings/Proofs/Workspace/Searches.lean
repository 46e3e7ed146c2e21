import UxmlBindings.Proofs.Files.Walks
import UxmlBindings.Proofs.Workspace.Cleaning

/-!
# Searches for bindings

Directories are searched for bindings files one after the other, each as the searches before it have left
the files. However the directories overlap, every bindings file below one of them is removed once, except
where a walk cannot go into a directory on the way.
-/

namespace UxmlBindings.Workspace

open Binding Files FileTree Settings

/-- The paths of the bindings files that a walk comes upon, and of the files that describe them. -/
def bindingsBelow (tree : FileTree) (root : Pathname) : List Pathname :=
  (sightings tree root).filterMap (Sighting.fileIf? isBindingsPath)

/-- The failure of a walk that a sighting is. -/
def walkFailure? : Sighting → Option Failure
  | .file _ => none
  | .closed directory fault => some (.walk directory fault)

/-- The tree without the files at some paths. -/
def withoutAll (tree : FileTree) (paths : List Pathname) : FileTree :=
  paths.foldl withoutFile tree

/-- The tree without the bindings files below some directories, which are searched in order. -/
def withoutBindings (tree : FileTree) (roots : List Pathname) : FileTree :=
  roots.foldl (fun tree root => withoutAll tree (bindingsBelow tree root)) tree

/-- In a search of some directories in order, every removal succeeds. -/
def Removable : FileTree → List Pathname → Prop
  | _, [] => True
  | tree, root :: rest =>
    (∀ path ∈ bindingsBelow tree root, (tree.removeFile path).isOk = true) ∧
      Removable (withoutAll tree (bindingsBelow tree root)) rest

instance decidableRemovable : ∀ tree roots, Decidable (Removable tree roots)
  | _, [] => .isTrue trivial
  | tree, root :: rest =>
    have := decidableRemovable (withoutAll tree (bindingsBelow tree root)) rest
    inferInstanceAs (Decidable (_ ∧ _))

section Trees

variable {start tree later : FileTree} {places : List Location} {path other root : Pathname}
  {paths : List Pathname} {names : List String}

theorem isOk_removeFile_iff : (tree.removeFile path).isOk = true ↔ HoldsFile tree path := by
  rw [holdsFile_iff]
  constructor
  · intro hok
    cases hremove : tree.removeFile path with
    | error fault =>
      rw [hremove] at hok
      cases hok
    | ok later =>
      have hremoves := removes_of_removeFile hremove
      exact ⟨_, hremoves.reached, hremoves.present⟩
  · rintro ⟨location, hpath, hcontent⟩
    obtain ⟨later, hremove⟩ := removeFile_of_content? hpath hcontent
    rw [hremove]
    rfl

/-- A file that is not lacking can be removed as before. -/
theorem isOk_removeFile_of_lacks (hlacks : Lacks places tree later)
    (hother : (tree.removeFile other).isOk = true) (hplace : placeOf tree.home other ∉ places) :
    (later.removeFile other).isOk = true := by
  rw [isOk_removeFile_iff, holdsFile_iff] at hother ⊢
  obtain ⟨location, hpath, hcontent⟩ := hother
  refine ⟨location, hlacks.locationOf_iff.2 hpath, ?_⟩
  rwa [hlacks.content, if_neg (eq_placeOf hpath ▸ hplace)]

/-- Files at different places can be removed one after the other, and each of them was still there. -/
theorem lacks_withoutAll (hlacks : Lacks places start tree) (honce : places.Nodup)
    (hremovable : ∀ path ∈ paths, (tree.removeFile path).isOk = true)
    (hapart : paths.Pairwise fun first second => placeOf tree.home first ≠ placeOf tree.home second) :
    (places ++ paths.map (placeOf start.home)).Nodup ∧
      Lacks (places ++ paths.map (placeOf start.home)) start (withoutAll tree paths) := by
  induction paths generalizing tree places with
  | nil =>
    rw [List.map_nil, List.append_nil]
    exact ⟨honce, hlacks⟩
  | cons path rest ih =>
    obtain ⟨hfirst, hrest⟩ := List.pairwise_cons.1 hapart
    cases hremove : tree.removeFile path with
    | error fault =>
      have hok := hremovable path (by simp)
      rw [hremove] at hok
      cases hok
    | ok later =>
      obtain ⟨hfresh, hlater⟩ := hlacks.removeFile hremove
      have hhome : later.home = tree.home := hlater.home.trans hlacks.home.symm
      have hwithout : withoutAll tree (path :: rest) = withoutAll later rest := by
        rw [withoutAll, List.foldl_cons, withoutFile, hremove]
        rfl
      rw [hwithout, List.map_cons, List.append_cons]
      refine ih hlater ?_ (fun other hother => ?_) (by rwa [hhome])
      · rw [List.nodup_append]
        refine ⟨honce, List.pairwise_singleton _ _, fun place hplace other hother => ?_⟩
        rw [List.mem_singleton.1 hother]
        exact fun hsame => hfresh (hsame ▸ hplace)
      · refine isOk_removeFile_of_lacks ((Lacks.refl tree).removeFile hremove).2
          (hremovable other (List.mem_cons_of_mem path hother)) ?_
        simpa using (hfirst other hother).symm

/-- The path down some names is that of a bindings file if the names end like it. -/
theorem isBindingsPath_pathTo (root : Pathname)
    (hnames : ∀ name ∈ names, Pathname.isName name = true) (hnonempty : names ≠ []) :
    isBindingsPath (pathTo root names) = (namedBindings names || namedDescription names) := by
  obtain ⟨before, last, rfl⟩ := (List.eq_nil_or_concat' names).resolve_left hnonempty
  rw [isBindingsPath, lastName?_pathTo root hnames hnonempty, namedBindings, namedDescription,
    List.getLast?_concat]
  rfl

end Trees

section Searches

variable {workspace : Workspace} {start tree : FileTree} {report : RemovalReport} {root : Pathname}
  {roots rest : List Pathname}

/-- A report with further removals and failures. -/
def RemovalReport.extend (report : RemovalReport) (removed : List Pathname) (failures : List Failure) :
    RemovalReport where
  removed := report.removed ++ removed
  failures := report.failures ++ failures

theorem RemovalReport.extend_extend (report : RemovalReport) (removed removed' : List Pathname)
    (failures failures' : List Failure) :
    (report.extend removed failures).extend removed' failures' =
      report.extend (removed ++ removed') (failures ++ failures') := by
  simp only [RemovalReport.extend, List.append_assoc]

/-- A bindings file that is sighted is removed, and a directory that is closed is a failure. -/
theorem execute_removeSighted (report : RemovalReport) {sighting : Sighting}
    (hremovable : ∀ path ∈ (sighting.fileIf? isBindingsPath).toList,
      (workspace.tree.removeFile path).isOk = true) :
    ∃ notices : List Notice, (removeSighted report sighting).execute workspace =
      (.ok (report.extend (sighting.fileIf? isBindingsPath).toList (walkFailure? sighting).toList),
        (workspace.withTree (withoutAll workspace.tree
          (sighting.fileIf? isBindingsPath).toList)).withNotices notices) := by
  cases sighting with
  | closed directory fault =>
    refine ⟨workspace.notices ++ [.directoryClosed directory fault], ?_⟩
    rw [Sighting.fileIf?, Option.toList_none, RemovalReport.extend, List.append_nil]
    rfl
  | file path =>
    rw [removeSighted]
    by_cases hbindings : isBindingsPath path = true
    · have hfile : (Sighting.file path).fileIf? isBindingsPath = some path := if_pos hbindings
      rw [hfile] at hremovable ⊢
      rw [if_pos hbindings, removeListed, execute_get_bind]
      cases hremove : workspace.tree.removeFile path with
      | error fault =>
        have hok := hremovable path (by simp)
        rw [hremove] at hok
        cases hok
      | ok later =>
        have hwithout : withoutAll workspace.tree [path] = later := by
          rw [withoutAll, List.foldl_cons, List.foldl_nil, withoutFile, hremove]
        refine ⟨workspace.notices, ?_⟩
        rw [Option.toList_some, hwithout, RemovalReport.extend, walkFailure?, Option.toList_none,
          List.append_nil]
        rfl
    · have hfile : (Sighting.file path).fileIf? isBindingsPath = none := if_neg hbindings
      refine ⟨workspace.notices, ?_⟩
      rw [hfile, if_neg hbindings, walkFailure?, Option.toList_none, Option.toList_none,
        RemovalReport.extend, List.append_nil, List.append_nil]
      rfl

/-- The bindings files among some sightings are removed, and the failures are those of the walk. -/
theorem execute_foldlM_removeSighted {found : List Sighting}
    (hremovable : ∀ path ∈ found.filterMap (Sighting.fileIf? isBindingsPath),
      (workspace.tree.removeFile path).isOk = true)
    (hapart : (found.filterMap (Sighting.fileIf? isBindingsPath)).Pairwise fun first second =>
      placeOf workspace.tree.home first ≠ placeOf workspace.tree.home second) :
    ∃ notices : List Notice, (found.foldlM removeSighted report).execute workspace =
      (.ok (report.extend (found.filterMap (Sighting.fileIf? isBindingsPath))
          (found.filterMap walkFailure?)),
        (workspace.withTree (withoutAll workspace.tree
          (found.filterMap (Sighting.fileIf? isBindingsPath)))).withNotices notices) := by
  induction found generalizing workspace report with
  | nil =>
    rw [List.filterMap_nil, List.filterMap_nil, RemovalReport.extend, List.append_nil, List.append_nil]
    exact ⟨workspace.notices, rfl⟩
  | cons sighting rest ih =>
    have hcons {α : Type} (seen? : Sighting → Option α) :
        (sighting :: rest).filterMap seen? = (seen? sighting).toList ++ rest.filterMap seen? := by
      cases hseen : seen? sighting <;> simp [hseen]
    rw [hcons] at hremovable hapart
    obtain ⟨hfirst, hrest, hothers⟩ := List.pairwise_append.1 hapart
    have hsighted (path : Pathname) (hpath : path ∈ (sighting.fileIf? isBindingsPath).toList) :=
      hremovable path (List.mem_append_left _ hpath)
    obtain ⟨-, hlacks⟩ := lacks_withoutAll (.refl workspace.tree) .nil hsighted hfirst
    obtain ⟨noted, hstep⟩ := execute_removeSighted report hsighted
    let searched := (workspace.withTree (withoutAll workspace.tree
      (sighting.fileIf? isBindingsPath).toList)).withNotices noted
    have hhome : searched.tree.home = workspace.tree.home := hlacks.home
    have hlater : ∀ other ∈ rest.filterMap (Sighting.fileIf? isBindingsPath),
        (searched.tree.removeFile other).isOk = true := by
      intro other hother
      -- What was sighted first stands at another place.
      refine isOk_removeFile_of_lacks hlacks (hremovable other (List.mem_append_right _ hother)) ?_
      intro hplace
      obtain ⟨path, hpath, hsame⟩ := List.mem_map.1 hplace
      exact hothers path hpath other hother hsame
    obtain ⟨notices, hrun⟩ := @ih searched
      (report.extend (sighting.fileIf? isBindingsPath).toList (walkFailure? sighting).toList)
      hlater (by rwa [hhome])
    refine ⟨notices, ?_⟩
    rw [List.foldlM_cons, execute_bind_ok hstep, hrun, RemovalReport.extend_extend, hcons, hcons,
      withoutAll, withoutAll, List.foldl_append]
    rfl

/-- Below an output directory, all bindings files are removed that the walk comes upon. -/
theorem execute_removeBelow (report : RemovalReport) (hnamed : workspace.tree.IsNamed)
    (hremovable : ∀ path ∈ bindingsBelow workspace.tree root,
      (workspace.tree.removeFile path).isOk = true) :
    ∃ notices : List Notice, (removeBelow report root).execute workspace =
      (.ok (report.extend (bindingsBelow workspace.tree root)
          ((sightings workspace.tree root).filterMap walkFailure?)),
        (workspace.withTree (withoutAll workspace.tree
          (bindingsBelow workspace.tree root))).withNotices notices) := by
  have hapart := pairwise_sightings hnamed root isBindingsPath
  have hrun : (removeBelow report root).execute workspace =
      ((sightings workspace.tree root).foldlM removeSighted report).execute workspace := by
    rw [removeBelow, execute_get_bind, sightings]
    split <;> rfl
  rw [hrun]
  exact execute_foldlM_removeSighted hremovable hapart

/-- What holds once some directories of a tree were searched: the removed files are lacking, each of them
is reported once, and of the bindings files below these directories only those are left to which no walk
could come. -/
structure Swept (start : FileTree) (roots : List Pathname) (tree : FileTree) (report : RemovalReport) :
    Prop where
  lacks : Lacks (report.removed.map (placeOf start.home)) start tree
  once : (report.removed.map (placeOf start.home)).Nodup
  below : ∀ path ∈ report.removed, isBindingsPath path = true ∧
    ∃ root ∈ roots, ∃ top names, LeadsTo start root top ∧ names ≠ [] ∧ path = pathTo root names
  failures : ∀ failure, failure ∈ report.failures ↔
    ∃ root ∈ roots, ∃ directory fault, .closed directory fault ∈ sightings start root ∧
      failure = .walk directory fault
  left : ∀ root ∈ roots, ∀ top names, LeadsTo start root top →
    (namedBindings names = true ∨ namedDescription names = true) →
    (tree.content? (top ++ names)).isSome → start.comesTo root top names = false

theorem swept_nil (tree : FileTree) : Swept tree [] tree {} where
  lacks := .refl tree
  once := .nil
  below := nofun
  failures failure := by simp
  left := nofun

theorem walkFailure?_eq_some_iff {sighting : Sighting} {failure : Failure} :
    walkFailure? sighting = some failure ↔
      ∃ directory fault, sighting = .closed directory fault ∧ failure = .walk directory fault := by
  cases sighting with
  | file path => simp [walkFailure?]
  | closed directory fault => simp [walkFailure?, eq_comm]

/-- A path is among the bindings files that a walk comes upon if its names lead down to a file. -/
theorem mem_bindingsBelow_iff {path : Pathname} :
    path ∈ bindingsBelow tree root ↔ isBindingsPath path = true ∧
      ∃ top names, LeadsTo tree root top ∧ tree.comesTo root top names = true ∧
        (tree.content? (top ++ names)).isSome ∧ path = pathTo root names := by
  rw [bindingsBelow, List.mem_filterMap, and_comm, ← file_mem_sightings_iff]
  constructor
  · rintro ⟨sighting, hsighting, hpath⟩
    obtain ⟨rfl, hbindings⟩ := Sighting.fileIf?_eq_some_iff.1 hpath
    exact ⟨hsighting, hbindings⟩
  · rintro ⟨hsighting, hbindings⟩
    exact ⟨_, hsighting, Sighting.fileIf?_eq_some_iff.2 ⟨rfl, hbindings⟩⟩

/-- One more directory is searched. -/
theorem Swept.search (hswept : Swept start roots tree report) (hnamed : start.IsNamed)
    (hremovable : ∀ path ∈ bindingsBelow tree root, (tree.removeFile path).isOk = true) :
    Swept start (roots ++ [root]) (withoutAll tree (bindingsBelow tree root))
      (report.extend (bindingsBelow tree root) ((sightings tree root).filterMap walkFailure?)) := by
  have htree := hswept.lacks.isNamed hnamed
  obtain ⟨honce, hlacks⟩ := lacks_withoutAll hswept.lacks hswept.once hremovable
    (pairwise_sightings htree root isBindingsPath)
  rw [← List.map_append] at honce hlacks
  refine ⟨hlacks, honce, fun path hpath => ?_, fun failure => ?_, ?_⟩
  · rcases List.mem_append.1 hpath with hbefore | hnow
    · obtain ⟨hbindings, root', hroot', hbelow⟩ := hswept.below path hbefore
      exact ⟨hbindings, root', List.mem_append_left _ hroot', hbelow⟩
    · obtain ⟨hbindings, top, names, hleads, -, hcontent, rfl⟩ := mem_bindingsBelow_iff.1 hnow
      exact ⟨hbindings, root, by simp, top, names, hswept.lacks.leadsTo_iff.1 hleads,
        hleads.ne_nil hcontent, rfl⟩
  · have hwalk : failure ∈ (sightings tree root).filterMap walkFailure? ↔
        ∃ directory fault, .closed directory fault ∈ sightings start root ∧
          failure = .walk directory fault := by
      simp only [List.mem_filterMap, walkFailure?_eq_some_iff, ← hswept.lacks.closed_mem_sightings_iff]
      constructor
      · rintro ⟨sighting, hsighting, directory, fault, rfl, hfailure⟩
        exact ⟨directory, fault, hsighting, hfailure⟩
      · rintro ⟨directory, fault, hsighting, hfailure⟩
        exact ⟨_, hsighting, directory, fault, rfl, hfailure⟩
    rw [RemovalReport.extend, List.mem_append, hswept.failures, hwalk]
    simp only [List.mem_append, List.mem_singleton, or_and_right, exists_or, exists_eq_left]
  · intro root' hroot' top names hleads hnames hcontent
    -- What is left now was there before this search.
    rw [hlacks.content] at hcontent
    split at hcontent
    · cases hcontent
    rename_i hfresh
    rw [List.map_append, List.mem_append, not_or] at hfresh
    have hthere : (tree.content? (top ++ names)).isSome := by
      rwa [hswept.lacks.content, if_neg hfresh.1]
    rcases List.mem_append.1 hroot' with hbefore | hnow
    · exact hswept.left root' hbefore top names hleads hnames hthere
    · obtain rfl := List.mem_singleton.1 hnow
      rw [← Bool.not_eq_true, ← hswept.lacks.comesTo]
      intro hcomes
      have hbelow := hnamed.isName_below (isSome_entryAt hcontent)
      have hbindings : isBindingsPath (pathTo root' names) = true := by
        rw [isBindingsPath_pathTo root' hbelow (hleads.ne_nil hcontent), Bool.or_eq_true]
        exact hnames
      have hmem := mem_bindingsBelow_iff.2
        ⟨hbindings, top, names, hswept.lacks.leadsTo_iff.2 hleads, hcomes, hthere, rfl⟩
      exact hfresh.2 (List.mem_map.2 ⟨_, hmem, hleads.placeOf hbelow⟩)

/-- A search of some directories ends without a failure of its own, and what was swept is what it should
be. -/
theorem execute_foldlM_removeBelow (hnamed : start.IsNamed)
    (hswept : Swept start roots workspace.tree report) (hremovable : Removable workspace.tree rest) :
    ∃ report' notices, (rest.foldlM removeBelow report).execute workspace =
        (.ok report', (workspace.withTree (withoutBindings workspace.tree rest)).withNotices notices) ∧
      Swept start (roots ++ rest) (withoutBindings workspace.tree rest) report' := by
  induction rest generalizing workspace roots report with
  | nil =>
    rw [List.append_nil]
    exact ⟨report, workspace.notices, rfl, hswept⟩
  | cons root rest ih =>
    obtain ⟨hfirst, hrest⟩ := hremovable
    obtain ⟨noted, hstep⟩ := execute_removeBelow report (hswept.lacks.isNamed hnamed) hfirst
    let searched := (workspace.withTree (withoutAll workspace.tree
      (bindingsBelow workspace.tree root))).withNotices noted
    obtain ⟨report', notices, hrun, hswept'⟩ :=
      @ih searched _ _ (hswept.search hnamed hfirst) hrest
    refine ⟨report', notices, ?_, ?_⟩
    · rw [List.foldlM_cons, execute_bind_ok hstep, hrun]
      rfl
    · rw [List.append_cons]
      exact hswept'

end Searches

end UxmlBindings.Workspace
