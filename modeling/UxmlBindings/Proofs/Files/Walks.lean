import UxmlBindings.Proofs.Files.Pieces
import UxmlBindings.Proofs.Files.Places

/-!
# Walks through directories

A walk comes upon every file below a directory once, except where it cannot go into a directory on the
way: the path of it is too long to be looked up, or the system does not let it be listed. Such a
directory is reported in place of what is in it. When files are removed between two walks, the second
one comes upon the others as the first one did.
-/

namespace UxmlBindings.Files

namespace Pathname

variable {name : String} {base next : Pathname}

/-- Whether a text can be the name of an entry of a directory. -/
def isName (name : String) : Bool :=
  !name.toList.contains '/' && !isIdle name.toList && name.toList != ['.', '.']

/-- A name is a path with itself as its only component. -/
theorem components_of_isName (hname : isName name = true) :
    (mk name).split.1 = .none ∧ (mk name).components = [.named name] := by
  simp only [isName, Bool.and_eq_true, Bool.not_eq_true', bne_iff_ne] at hname
  exact components_name (by simpa using hname.1.1) hname.1.2 hname.2

theorem isPlain_of_isName (hname : isName name = true) : (mk name).isPlain = true := by
  rw [isPlain, (components_of_isName hname).2]
  rfl

theorem names_of_isName (hname : isName name = true) : (mk name).names = [name] := by
  have hcomponents := components_of_isPlain (isPlain_of_isName hname)
  rw [(components_of_isName hname).2] at hcomponents
  exact List.map_injective_iff.2 (fun _ _ => Component.named.inj) hcomponents.symm

/-- A path that is continued begins as it was and ends in the continuation. -/
theorem exists_text_join (base : Pathname) (hnext : next.isAbsolute = false) :
    ∃ between, (base.join next).text = base.text ++ (between ++ next.text) := by
  rw [join, hnext, if_neg Bool.false_ne_true]
  split
  · exact ⟨"", by simp⟩
  · exact ⟨"/", String.append_assoc⟩

end Pathname

namespace FileTree

open Pathname

variable {tree start : FileTree} {root path : Pathname} {names : List String} {location : Location}

/-- All entries of a tree have names. -/
def IsNamed (tree : FileTree) : Prop :=
  ∀ entry ∈ tree.entries.toList, ∀ name ∈ entry.1, isName name = true

instance (tree : FileTree) : Decidable tree.IsNamed :=
  inferInstanceAs (Decidable (∀ entry ∈ tree.entries.toList, ∀ name ∈ entry.1, isName name = true))

theorem IsNamed.isName (hnamed : tree.IsNamed) (hentry : (tree.entryAt location).isSome)
    {name : String} (hname : name ∈ location) : isName name = true := by
  rw [entryAt, if_neg (by simpa using List.ne_nil_of_mem hname)] at hentry
  obtain ⟨entry, hentry⟩ := Option.isSome_iff_exists.1 hentry
  exact hnamed (location, entry) (Std.ExtTreeMap.mem_toList_iff_getElem?_eq_some.2 hentry) name hname

section Paths

@[simp] theorem pathTo_nil (path : Pathname) : pathTo path [] = path :=
  rfl

@[simp] theorem pathTo_cons (path : Pathname) (name : String) (rest : List String) :
    pathTo path (name :: rest) = pathTo (path.join ⟨name⟩) rest :=
  rfl

/-- The path down some names has them as its last components. -/
theorem components_pathTo (path : Pathname) (hnames : ∀ name ∈ names, isName name = true) :
    (pathTo path names).components = path.components ++ names.map .named := by
  induction names generalizing path with
  | nil => exact (List.append_nil _).symm
  | cons name rest ih =>
    obtain ⟨hlead, hname⟩ := components_of_isName (hnames name (by simp))
    rw [pathTo_cons, ih _ fun other hother => hnames other (List.mem_cons_of_mem name hother),
      components_join path hlead, hname, List.append_assoc]
    rfl

/-- The path down some names leads down these names. -/
theorem placeOf_pathTo (home : Location) (path : Pathname)
    (hnames : ∀ name ∈ names, isName name = true) :
    placeOf home (pathTo path names) = placeOf home path ++ names := by
  induction names generalizing path with
  | nil => exact (List.append_nil _).symm
  | cons name rest ih =>
    have hname := hnames name (by simp)
    rw [pathTo_cons, ih _ fun other hother => hnames other (List.mem_cons_of_mem name hother),
      placeOf_join home path (isPlain_of_isName hname), names_of_isName hname, List.append_assoc]
    rfl

/-- The path down some names ends in the last of them. -/
theorem lastName?_pathTo (path : Pathname) (hnames : ∀ name ∈ names, isName name = true)
    (hnonempty : names ≠ []) : (pathTo path names).lastName? = names.getLast? := by
  obtain ⟨before, last, rfl⟩ := (List.eq_nil_or_concat' names).resolve_left hnonempty
  rw [lastName?, components_pathTo path hnames, List.map_append, ← List.append_assoc]
  simp

theorem isSome_refusal?_iff : (refusal? path).isSome ↔
    path.text = "" ∨ '\x00' ∈ path.text.toList ∨ maxPathBytes < path.text.utf8ByteSize := by
  unfold refusal?
  by_cases hempty : path.text = ""
  · simp [hempty]
  by_cases hzero : '\x00' ∈ path.text.toList
  · simp [hempty, hzero]
  by_cases hlong : maxPathBytes < path.text.utf8ByteSize
  · simp [hempty, hzero, hlong]
  · simp [hempty, hzero, hlong]

end Paths

/-- A path leads to a directory. -/
structure LeadsTo (tree : FileTree) (root : Pathname) (top : Location) : Prop where
  reached : tree.locationOf root = .ok top
  directory : tree.entryAt top = some .directory

/-- What a walk from a path comes upon if there is a directory. -/
def sightings (tree : FileTree) (root : Pathname) : List Sighting :=
  if tree.holdsDirectory root then tree.walk root else []

theorem holdsDirectory_iff : tree.holdsDirectory root = true ↔ ∃ top, LeadsTo tree root top := by
  rw [holdsDirectory, find?]
  constructor
  · intro hfound
    cases hreached : tree.locationOf root with
    | error fault => simp [hreached] at hfound
    | ok top => exact ⟨top, hreached, by simpa [hreached] using hfound⟩
  · rintro ⟨top, hreached, hdirectory⟩
    simp [hreached, hdirectory]

/-- Names lead down to a location if it continues that of the directory. -/
theorem namesBelow?_eq_some_iff {top : Location} :
    namesBelow? top location = some names ↔ location = top ++ names := by
  unfold namesBelow?
  split
  · rename_i hprefix
    obtain ⟨rest, rfl⟩ := List.isPrefixOf_iff_prefix.1 hprefix
    simp [eq_comm]
  · rename_i hprefix
    refine iff_of_false nofun ?_
    rintro rfl
    exact hprefix (List.isPrefixOf_iff_prefix.2 (List.prefix_append top names))

/-- A file is not where the walk starts. -/
theorem LeadsTo.ne_nil {top : Location} (hleads : LeadsTo tree root top)
    (hcontent : (tree.content? (top ++ names)).isSome) : names ≠ [] := by
  rintro rfl
  rw [List.append_nil, content?, hleads.directory] at hcontent
  cases hcontent

/-- The path down the names to an entry leads to it. -/
theorem LeadsTo.placeOf {top : Location} (hleads : LeadsTo tree root top)
    (hnames : ∀ name ∈ names, isName name = true) :
    placeOf tree.home (pathTo root names) = top ++ names := by
  rw [placeOf_pathTo tree.home root hnames, ← eq_placeOf hleads.reached]

/-- The names down to an entry are names. -/
theorem IsNamed.isName_below {top : Location} (hnamed : tree.IsNamed)
    (hentry : (tree.entryAt (top ++ names)).isSome) : ∀ name ∈ names, Pathname.isName name = true :=
  fun _ hname => hnamed.isName hentry (List.mem_append_right top hname)

/-- A walk does not go down from a path that cannot be looked up. -/
theorem comesTo_eq_false_of_refusal? {fault : Fault} (hrefusal : refusal? root = some fault)
    (hnames : names ≠ []) (top : Location) : tree.comesTo root top names = false := by
  rw [comesTo, List.all_eq_false]
  refine ⟨0, List.mem_range.2 (List.length_pos_iff.2 hnames), ?_⟩
  rw [List.take_zero, pathTo_nil, barrier?, hrefusal]
  nofun

section Sightings

variable {sighting : Sighting} {top : Location}

/-- A walk comes upon what it sees of the entries at and below the directory. -/
theorem mem_sightings_iff :
    sighting ∈ sightings tree root ↔ ∃ top names entry, LeadsTo tree root top ∧
      tree.entryAt (top ++ names) = some entry ∧
      tree.sighting? root top names entry = some sighting := by
  unfold sightings
  split
  · rename_i hdirectory
    obtain ⟨top, hleads⟩ := holdsDirectory_iff.1 hdirectory
    rw [walk, hleads.reached]
    simp only [List.mem_filterMap, Option.bind_eq_some_iff, namesBelow?_eq_some_iff]
    constructor
    · rintro ⟨-, -, names, rfl, entry, hentry, hsighting⟩
      exact ⟨top, names, entry, hleads, hentry, hsighting⟩
    · rintro ⟨top', names, entry, hleads', hentry, hsighting⟩
      obtain rfl := Except.ok.inj (hleads.reached.symm.trans hleads'.reached)
      refine ⟨top ++ names, ?_, names, rfl, entry, hentry, hsighting⟩
      rw [List.mem_cons, Std.ExtTreeMap.mem_keys]
      by_cases hlocation : top ++ names = []
      · exact .inl hlocation
      · rw [entryAt, if_neg (by simpa using hlocation)] at hentry
        exact .inr (Std.ExtTreeMap.mem_iff_isSome_getElem?.2 (by rw [hentry]; rfl))
  · rename_i hdirectory
    refine iff_of_false List.not_mem_nil ?_
    rintro ⟨top, -, -, hleads, -⟩
    exact hdirectory (holdsDirectory_iff.2 ⟨top, hleads⟩)

/-- A file is seen if the walk comes to it. -/
theorem sighting?_eq_file_iff {entry : Entry} :
    tree.sighting? root top names entry = some (.file path) ↔
      tree.comesTo root top names = true ∧ path = pathTo root names ∧
        ∃ content, entry = .file content := by
  rw [sighting?.eq_def]
  cases tree.comesTo root top names with
  | false => simp
  | true => cases entry <;> simp [eq_comm]

/-- A directory is seen if the walk comes to it, but cannot go into it. -/
theorem sighting?_eq_closed_iff {entry : Entry} {fault : Fault} :
    tree.sighting? root top names entry = some (.closed path fault) ↔
      tree.comesTo root top names = true ∧ path = pathTo root names ∧
        tree.barrier? path (top ++ names) = some fault ∧ entry = .directory := by
  rw [sighting?.eq_def]
  cases tree.comesTo root top names with
  | false => simp
  | true =>
    cases entry with
    | file content => simp
    | directory =>
      simp only [if_true, Option.map_eq_some_iff, Sighting.closed.injEq, true_and, and_true]
      constructor
      · rintro ⟨_, hbarrier, rfl, rfl⟩
        exact ⟨rfl, hbarrier⟩
      · rintro ⟨rfl, hbarrier⟩
        exact ⟨fault, hbarrier, rfl, rfl⟩

/-- A walk comes upon the files that it comes to. -/
theorem file_mem_sightings_iff :
    .file path ∈ sightings tree root ↔ ∃ top names, LeadsTo tree root top ∧
      tree.comesTo root top names = true ∧ (tree.content? (top ++ names)).isSome ∧
      path = pathTo root names := by
  rw [mem_sightings_iff]
  refine exists₂_congr fun top names => ?_
  constructor
  · rintro ⟨entry, hleads, hentry, hsighting⟩
    obtain ⟨hcomes, hpath, content, rfl⟩ := sighting?_eq_file_iff.1 hsighting
    exact ⟨hleads, hcomes, by rw [content?_eq_some_iff.2 hentry]; rfl, hpath⟩
  · rintro ⟨hleads, hcomes, hcontent, hpath⟩
    obtain ⟨content, hcontent⟩ := Option.isSome_iff_exists.1 hcontent
    exact ⟨_, hleads, content?_eq_some_iff.1 hcontent,
      sighting?_eq_file_iff.2 ⟨hcomes, hpath, content, rfl⟩⟩

/-- A walk comes upon the directories that it comes to, but cannot go into. -/
theorem closed_mem_sightings_iff {fault : Fault} :
    .closed path fault ∈ sightings tree root ↔ ∃ top names, LeadsTo tree root top ∧
      tree.comesTo root top names = true ∧ tree.entryAt (top ++ names) = some .directory ∧
      path = pathTo root names ∧ tree.barrier? path (top ++ names) = some fault := by
  rw [mem_sightings_iff]
  refine exists₂_congr fun top names => ?_
  constructor
  · rintro ⟨entry, hleads, hentry, hsighting⟩
    obtain ⟨hcomes, hpath, hbarrier, rfl⟩ := sighting?_eq_closed_iff.1 hsighting
    exact ⟨hleads, hcomes, hentry, hpath, hbarrier⟩
  · rintro ⟨hleads, hcomes, hentry, hpath, hbarrier⟩
    exact ⟨_, hleads, hentry, sighting?_eq_closed_iff.2 ⟨hcomes, hpath, hbarrier, rfl⟩⟩

/-- The paths of the files that a walk comes upon, as far as they pass a test. -/
def Sighting.fileIf? (test : Pathname → Bool) : Sighting → Option Pathname
  | .file path => if test path then some path else none
  | .closed _ _ => none

theorem Sighting.fileIf?_eq_some_iff {test : Pathname → Bool} :
    sighting.fileIf? test = some path ↔ sighting = .file path ∧ test path = true := by
  cases sighting with
  | file other =>
    simp only [Sighting.fileIf?, Option.ite_none_right_eq_some, Option.some.injEq, Sighting.file.injEq]
    constructor
    · rintro ⟨htest, rfl⟩
      exact ⟨rfl, htest⟩
    · rintro ⟨rfl, htest⟩
      exact ⟨htest, rfl⟩
  | closed directory fault => simp [Sighting.fileIf?]

/-- A walk comes upon no file twice. -/
theorem pairwise_sightings (hnamed : tree.IsNamed) (root : Pathname) (test : Pathname → Bool) :
    ((sightings tree root).filterMap (Sighting.fileIf? test)).Pairwise fun first second =>
      placeOf tree.home first ≠ placeOf tree.home second := by
  unfold sightings
  split
  · rename_i hdirectory
    obtain ⟨top, hleads⟩ := holdsDirectory_iff.1 hdirectory
    rw [walk, hleads.reached]
    dsimp only
    rw [List.filterMap_filterMap, List.pairwise_filterMap]
    -- The path that is seen of a file leads back to the location of the file.
    have hplace (location : Location) (path : Pathname)
        (hsighted : (((namesBelow? top location).bind fun names =>
          (tree.entryAt location).bind (tree.sighting? root top names)).bind
            (Sighting.fileIf? test)) = some path) :
        placeOf tree.home path = location ∧ location ≠ [] := by
      obtain ⟨sighting, hsighting, hpath⟩ := Option.bind_eq_some_iff.1 hsighted
      obtain ⟨names, hbelow, hseen⟩ := Option.bind_eq_some_iff.1 hsighting
      obtain ⟨entry, hentry, hseen⟩ := Option.bind_eq_some_iff.1 hseen
      obtain ⟨rfl, -⟩ := Sighting.fileIf?_eq_some_iff.1 hpath
      obtain ⟨-, rfl, content, rfl⟩ := sighting?_eq_file_iff.1 hseen
      obtain rfl := namesBelow?_eq_some_iff.1 hbelow
      have hother : tree.entryAt (top ++ names) ≠ some .directory := by simp [hentry]
      exact ⟨hleads.placeOf (hnamed.isName_below (by rw [hentry]; rfl)), ne_nil_of_entryAt hother⟩
    refine List.pairwise_cons.2 ⟨fun _ _ path hpath => absurd rfl (hplace [] path hpath).2, ?_⟩
    refine List.Pairwise.imp ?_ Std.ExtTreeMap.distinct_keys
    intro first second hdistinct path hpath other hother hsame
    rw [(hplace first path hpath).1, (hplace second other hother).1] at hsame
    exact hdistinct (Std.LawfulEqCmp.compare_eq_iff_eq.2 hsame)
  · exact .nil

end Sightings

/-- A tree is an earlier one without the files at some places. -/
structure Lacks (places : List Location) (start tree : FileTree) : Prop where
  home : tree.home = start.home
  unlistable : tree.unlistable = start.unlistable
  present : ∀ place ∈ places, (start.content? place).isSome
  entry : ∀ location, tree.entryAt location =
    if location ∈ places then none else start.entryAt location

namespace Lacks

variable {places : List Location} {later : FileTree}

theorem refl (tree : FileTree) : Lacks [] tree tree :=
  ⟨rfl, rfl, nofun, fun _ => (if_neg List.not_mem_nil).symm⟩

/-- What is no longer there was a file. -/
theorem entryAt_start (hlacks : Lacks places start tree) (hplace : location ∈ places) :
    ∃ content, start.entryAt location = some (.file content) := by
  obtain ⟨content, hcontent⟩ := Option.isSome_iff_exists.1 (hlacks.present location hplace)
  exact ⟨content, content?_eq_some_iff.1 hcontent⟩

/-- The directories are the same. -/
theorem directory_iff (hlacks : Lacks places start tree) (location : Location) :
    tree.entryAt location = some .directory ↔ start.entryAt location = some .directory := by
  rw [hlacks.entry]
  split
  · rename_i hplace
    obtain ⟨content, hcontent⟩ := hlacks.entryAt_start hplace
    simp [hcontent]
  · rfl

/-- The files are the same but for those that are lacking. -/
theorem content (hlacks : Lacks places start tree) (location : Location) :
    tree.content? location = if location ∈ places then none else start.content? location := by
  rw [content?, hlacks.entry]
  split_ifs
  · rfl
  · rfl

/-- Paths lead to the same locations. -/
theorem locationOf_iff (hlacks : Lacks places start tree) :
    tree.locationOf path = .ok location ↔ start.locationOf path = .ok location := by
  have hgrows : Grows start tree := ⟨hlacks.home, fun other => (hlacks.directory_iff other).2⟩
  have hgrows' : Grows tree start := ⟨hlacks.home.symm, fun other => (hlacks.directory_iff other).1⟩
  exact ⟨hgrows'.locationOf, hgrows.locationOf⟩

/-- Paths lead to the same directories. -/
theorem leadsTo_iff (hlacks : Lacks places start tree) :
    LeadsTo tree root location ↔ LeadsTo start root location := by
  constructor
  · rintro ⟨hreached, hdirectory⟩
    exact ⟨hlacks.locationOf_iff.1 hreached, (hlacks.directory_iff location).1 hdirectory⟩
  · rintro ⟨hreached, hdirectory⟩
    exact ⟨hlacks.locationOf_iff.2 hreached, (hlacks.directory_iff location).2 hdirectory⟩

/-- The barriers are the same. -/
theorem barrier? (hlacks : Lacks places start tree) (path : Pathname) (location : Location) :
    tree.barrier? path location = start.barrier? path location := by
  rw [FileTree.barrier?, FileTree.barrier?, hlacks.unlistable]

/-- A walk comes to the same entries. -/
theorem comesTo (hlacks : Lacks places start tree) (path : Pathname) (top : Location)
    (names : List String) : tree.comesTo path top names = start.comesTo path top names := by
  simp only [FileTree.comesTo, hlacks.barrier?]

/-- A path that led somewhere leads nowhere now if it led to one of the files that are lacking. -/
theorem holds_eq_false_iff (hlacks : Lacks places start tree) :
    tree.holds path = false ↔
      start.holds path = false ∨ ∃ place ∈ places, start.locationOf path = .ok place := by
  have hholds (other : FileTree) : other.holds path = false ↔
      ∀ location, other.locationOf path = .ok location → other.entryAt location = none := by
    rw [holds, find?]
    cases other.locationOf path with
    | error fault => simp
    | ok location => simp
  simp only [hholds, hlacks.locationOf_iff, hlacks.entry]
  constructor
  · intro hnone
    by_cases hplace : ∃ place ∈ places, start.locationOf path = .ok place
    · exact .inr hplace
    · refine .inl fun location hpath => ?_
      have hlocation := hnone location hpath
      rwa [if_neg fun hmem => hplace ⟨location, hmem, hpath⟩] at hlocation
  · rintro (hnone | ⟨place, hplace, hpath⟩) location hlocation
    · rw [hnone location hlocation, ite_self]
    · obtain rfl := Except.ok.inj (hpath.symm.trans hlocation)
      exact if_pos hplace

/-- What is left has names. -/
theorem isNamed (hlacks : Lacks places start tree) (hnamed : start.IsNamed) : tree.IsNamed := by
  rintro ⟨location, entry⟩ hentry name hname
  have hfound := Std.ExtTreeMap.mem_toList_iff_getElem?_eq_some.1 hentry
  have hstanding : tree.entryAt location = some entry := by
    rw [entryAt, if_neg (by simpa using List.ne_nil_of_mem hname), hfound]
  rw [hlacks.entry] at hstanding
  split at hstanding
  · cases hstanding
  · exact hnamed.isName (by rw [hstanding]; rfl) hname

/-- A walk is stopped by the same directories. -/
theorem closed_mem_sightings_iff (hlacks : Lacks places start tree) {directory : Pathname}
    {fault : Fault} :
    .closed directory fault ∈ sightings tree root ↔ .closed directory fault ∈ sightings start root := by
  simp only [FileTree.closed_mem_sightings_iff, hlacks.leadsTo_iff, hlacks.comesTo,
    hlacks.directory_iff, hlacks.barrier?]

/-- A further file that is removed was not lacking before. -/
theorem removeFile (hlacks : Lacks places start tree) (hremove : tree.removeFile path = .ok later) :
    placeOf start.home path ∉ places ∧ Lacks (places ++ [placeOf start.home path]) start later := by
  obtain ⟨content, -, hentry, rfl⟩ := eq_erase_of_removeFile hremove
  rw [hlacks.home] at hentry ⊢
  generalize placeOf start.home path = place at hentry ⊢
  have hstanding := hlacks.entry place
  have hfresh : place ∉ places := by
    intro hplace
    rw [if_pos hplace, hentry] at hstanding
    cases hstanding
  rw [if_neg hfresh, hentry] at hstanding
  refine ⟨hfresh, hlacks.home, hlacks.unlistable, fun other hother => ?_, fun other => ?_⟩
  · rcases List.mem_append.1 hother with hmem | hmem
    · exact hlacks.present other hmem
    · rw [List.mem_singleton.1 hmem, content?_eq_some_iff.2 hstanding.symm]
      rfl
  · have hfile : tree.entryAt place ≠ some .directory := by simp [hentry]
    rw [entryAt_erase tree (ne_nil_of_entryAt hfile), hlacks.entry]
    by_cases hsame : place = other
    · simp [hsame]
    · simp [hsame, Ne.symm hsame]

end Lacks

end FileTree

end UxmlBindings.Files
