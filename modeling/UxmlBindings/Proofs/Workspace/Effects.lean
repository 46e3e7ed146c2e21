import UxmlBindings.Proofs.Files.Lookups
import UxmlBindings.Proofs.Workspace.Cleaning

/-!
# Effects of runs

What a run for bindings reads and changes is at the paths of its footprint: its source, its output, the
recorded output of an earlier run and the description of that one. On all workspaces that resemble each
other from there, a run has the same effect. It makes the same edits of files and records the same path.
What comes of it is the same as well, up to the reason why a source cannot be read.
-/

namespace UxmlBindings.Workspace

open Binding Files FileTree Settings

section Removal

variable {tree : FileTree} {places : List Location} {root last : Pathname}

/-- Without its last name, a continuation of a location continues it or begins it. -/
theorem dropLast_append_isPrefix (location names : Location) :
    (location ++ names).dropLast <+: location ++ names.dropLast := by
  by_cases hnames : names = []
  · rw [hnames, List.append_nil, List.dropLast_nil, List.append_nil]
    exact List.dropLast_prefix location
  · simp only [List.dropLast_append_of_ne_nil hnames, List.prefix_rfl]

/-- The tree without a file is what a removal leaves. -/
theorem withoutFile_eq (tree : FileTree) (path : Pathname) :
    withoutFile tree path = (afterRemoval path tree).2 := by
  unfold withoutFile afterRemoval
  cases tree.removeFile path <;> rfl

theorem grows_afterRemoval (tree : FileTree) (path : Pathname) :
    Grows tree (afterRemoval path tree).2 := by
  rw [← withoutFile_eq]
  exact grows_withoutFile tree path

/-- What comes after a description was removed or not. -/
def finishRemoval (path : Pathname) (outcome : Except Fault Unit) (tree : FileTree) : FileTree :=
  match outcome with
  | .ok () | .error .notFound => (afterRemoval path tree).2
  | .error _ => tree

/-- A described file is removed after its description. -/
theorem withoutDescribed_eq (tree : FileTree) (path : Pathname) :
    withoutDescribed tree path =
      finishRemoval path (afterRemoval (path.extend metaEnding) tree).1
        (afterRemoval (path.extend metaEnding) tree).2 := by
  rw [withoutDescribed, withoutDescription?, afterRemoval]
  cases tree.removeFile (path.extend metaEnding) with
  | ok later => exact withoutFile_eq later path
  | error fault =>
    cases fault with
    | notFound => exact withoutFile_eq tree path
    | _ => rfl

/-- If a directory is missing on the way to the description of a file, the file does not exist either. -/
theorem entryAt_eq_none_of_above {location : Location} (hgrounded : tree.IsGrounded)
    (hplain : last.isPlain = true) (hdescription : (last.extend metaEnding).isPlain = true)
    (habove : IsAbove location (placeOf tree.home (root.join (last.extend metaEnding))))
    (hnone : tree.entryAt location = none) :
    tree.entryAt (placeOf tree.home (root.join last)) = none := by
  refine hgrounded.entryAt_eq_none ?_ hnone
  rw [placeOf_join tree.home root hdescription] at habove
  rw [placeOf_join tree.home root hplain]
  have hnames := Pathname.dropLast_names_extend last (show '/' ∉ metaEnding.toList by decide)
    (show 3 ≤ metaEnding.toList.length by decide)
  exact (habove.prefix_dropLast.trans (dropLast_append_isPrefix _ _)).trans
    ((List.prefix_append_right_inj _).2 hnames)

/-- Where neither a file nor its description exists, removing them changes nothing. -/
theorem withoutDescribed_of_none {path : Pathname}
    (hdescription : tree.entryAt (placeOf tree.home (path.extend metaEnding)) = none)
    (hfile : tree.entryAt (placeOf tree.home path) = none) : withoutDescribed tree path = tree := by
  obtain ⟨fault, hremoval⟩ := afterRemoval_of_none hdescription
  obtain ⟨other, hremoval'⟩ := afterRemoval_of_none hfile
  rw [withoutDescribed_eq, hremoval]
  cases fault with
  | notFound => rw [finishRemoval, hremoval']
  | _ => rfl

/-- Removing a described file is done within its place and that of its description. -/
theorem actsWithin_withoutDescribed (hgrounded : tree.IsGrounded) (henters : Enters tree root)
    (hplain : last.isPlain = true) (hdescription : (last.extend metaEnding).isPlain = true)
    (hplace : placeOf tree.home (root.join last) ∈ places)
    (hmeta : placeOf tree.home (root.join (last.extend metaEnding)) ∈ places) :
    ActsWithin places tree fun later => ((), withoutDescribed later (root.join last)) := by
  have hextend := Pathname.extend_join root (Pathname.isAbsolute_of_isPlain hplain)
    (show metaEnding.toList.head? ≠ some '/' by decide)
  by_cases hmissing : ∃ location,
      IsAbove location (placeOf tree.home (root.join (last.extend metaEnding))) ∧
        tree.entryAt location = none
  · obtain ⟨location, habove, hnone⟩ := hmissing
    have hnoMeta := hgrounded.entryAt_eq_none habove.1 hnone
    have hnoFile := entryAt_eq_none_of_above hgrounded hplain hdescription habove hnone
    refine (actsWithin_pure ()).of_eq fun later halike => ?_
    have hlaterMeta :
        later.entryAt (placeOf later.home (root.join (last.extend metaEnding))) = none := by
      rw [halike.home, halike.own _ hmeta, hnoMeta]
    have hlaterFile : later.entryAt (placeOf later.home (root.join last)) = none := by
      rw [halike.home, halike.own _ hplace, hnoFile]
    rw [withoutDescribed_of_none (by rwa [hextend]) hlaterFile]
  · have hsame (later : FileTree) (halike : Alike places tree later) :
        later.locationOf (root.join (last.extend metaEnding)) =
          tree.locationOf (root.join (last.extend metaEnding)) :=
      (locationOf_alike hgrounded henters hdescription hmeta halike).elim id fun h =>
        absurd h.1 hmissing
    let finish (outcome : Except Fault Unit) (later : FileTree) :=
      ((), finishRemoval (root.join last) outcome later)
    have hremoval : ActsWithin places tree fun later =>
        finish (afterRemoval (root.join (last.extend metaEnding)) later).1
          (afterRemoval (root.join (last.extend metaEnding)) later).2 := by
      refine (actsWithin_afterRemoval hmeta hsame).andThen fun outcome made hmade => ?_
      have hgrows := grows_afterRemoval tree (root.join (last.extend metaEnding))
      have hstill := hgrounded.afterRemoval (root.join (last.extend metaEnding))
      rw [hmade] at hgrows hstill
      rw [← hgrows.home] at hplace
      have hfile := actsWithin_removal hstill (henters.grow hgrows) hplain hplace
      cases outcome with
      | ok _ => exact hfile
      | error fault =>
        cases fault with
        | notFound => exact hfile
        | _ => exact actsWithin_pure ()
    refine hremoval.of_eq fun later _ => ?_
    rw [withoutDescribed_eq, hextend]

/-- Cleaning up after an earlier run is done within the places of what was recorded. -/
theorem actsWithin_withoutStale {workspace : Workspace} {previous : Option Pathname}
    (current : Pathname) (hgrounded : tree.IsGrounded) (henters : Enters tree workspace.root)
    (hrecorded : ∀ last, previous = some last →
      ∀ path ∈ [last, last.extend metaEnding],
        path.isPlain = true ∧ placeOf tree.home (workspace.locate path) ∈ places) :
    ActsWithin places tree fun later =>
      ((), withoutStale (workspace.withTree later) previous current) := by
  cases previous with
  | none => exact actsWithin_pure ()
  | some last =>
    obtain ⟨hplain, hplace⟩ := hrecorded last rfl last (by simp)
    obtain ⟨hdescription, hmeta⟩ := hrecorded last rfl (last.extend metaEnding) (by simp)
    by_cases hsame : last.same current = true
    · refine (actsWithin_pure ()).of_eq fun later _ => ?_
      rw [withoutStale, if_pos hsame]
      rfl
    · refine (actsWithin_withoutDescribed hgrounded henters hplain hdescription hplace hmeta).of_eq
        fun later _ => ?_
      rw [withoutStale, if_neg hsame]
      rfl

end Removal

section Footprints

variable (workspace : Workspace) (path : String)

/-- Where bindings are to be written for a file that can be read. -/
def outputPaths : List Pathname :=
  match workspace.asset? path with
  | .ok asset => [asset.bindingsPath]
  | .error _ => []

/-- The bindings that are recorded of an earlier run and their description. -/
def recordedPaths (setting : AssetOptions) : List Pathname :=
  match setting.lastBindings with
  | none => []
  | some last => [last, last.extend metaEnding]

/-- The paths of the files with which a run for bindings deals, from the project directory. -/
def footprint : List Pathname :=
  match workspace.settings.find? (keyOf path) with
  | none => []
  | some setting => ⟨setting.path⟩ :: (workspace.outputPaths path ++ recordedPaths setting)

/-- The places of these files. -/
def places : List Location :=
  (workspace.footprint path).map fun entry => placeOf workspace.tree.home (workspace.locate entry)

/-- The path of the markup file. -/
def sourceOf : Pathname :=
  workspace.locate ⟨keyOf path⟩

/-- A file has a setting under a path that is its own key, and its footprint consists of plain paths.
-/
structure Tidy : Prop where
  key : keyOf (keyOf path) = keyOf path
  configured : (workspace.settings.find? (keyOf path)).isSome
  plain : ∀ entry ∈ workspace.footprint path, entry.isPlain = true

/-- A workspace resembles another one as far as a run for a file is concerned. Where the root cannot be
entered, no run changes anything. -/
structure Resembles (later : Workspace) : Prop where
  root : later.root = workspace.root
  types : later.sessionTypes = workspace.sessionTypes
  memory : later.InMemory
  project : later.project = workspace.project
  setting : later.settings.find? (keyOf path) = workspace.settings.find? (keyOf path)
  tree : Alike (workspace.places path) workspace.tree later.tree
  entered : Enters workspace.tree workspace.root ∨ later.tree = workspace.tree

end Footprints

/-- What comes of a run for a source agrees with what comes of another run: it is the same, or neither can
read the source. A source that is missing and has a name that is too long cannot be read for both reasons;
which of them is given depends on the directories that exist above it. -/
inductive Agrees (source : Pathname) : Except Failure Report → Except Failure Report → Prop
  | same (outcome : Except Failure Report) : Agrees source outcome outcome
  | unread (hlong : HasLongName source) :
      Agrees source (.error (.file source .notFound)) (.error (.file source .tooLong))

section Sources

variable {workspace later : Workspace} {path : String}

/-- A tidy file is read at its source. -/
theorem Tidy.source (htidy : workspace.Tidy path) :
    ∃ setting, workspace.settings.find? (keyOf path) = some setting ∧ setting.path = keyOf path ∧
      (⟨keyOf path⟩ : Pathname).isPlain = true ∧
      placeOf workspace.tree.home (workspace.sourceOf path) ∈ workspace.places path := by
  obtain ⟨setting, hfind⟩ := Option.isSome_iff_exists.1 htidy.configured
  have hpath := path_of_find? hfind
  have hmem : (⟨keyOf path⟩ : Pathname) ∈ workspace.footprint path := by
    rw [footprint, hfind, ← hpath]
    exact List.mem_cons_self ..
  exact ⟨setting, hfind, hpath, htidy.plain _ hmem, List.mem_map_of_mem hmem⟩

/-- What is read of a source is the same in workspaces that resemble each other. -/
theorem Resembles.asset? (hresembles : workspace.Resembles path later)
    (hgrounded : workspace.tree.IsGrounded) (htidy : workspace.Tidy path) :
    later.asset? path = workspace.asset? path ∨
      HasLongName (workspace.sourceOf path) ∧
        workspace.asset? path = .error (.file (workspace.sourceOf path) .notFound) ∧
        later.asset? path = .error (.file (workspace.sourceOf path) .tooLong) := by
  obtain ⟨setting, hfind, hpath, hplain, hplace⟩ := htidy.source
  have hsource : workspace.locate ⟨setting.path⟩ = workspace.sourceOf path := by
    rw [hpath]
    rfl
  have hlater : later.locate ⟨setting.path⟩ = workspace.sourceOf path := by
    rw [← hsource, Workspace.locate, hresembles.root]
    rfl
  have hread : later.tree.readText (workspace.sourceOf path) =
        workspace.tree.readText (workspace.sourceOf path) ∨
      HasLongName (workspace.sourceOf path) ∧
        workspace.tree.readText (workspace.sourceOf path) = .error .notFound ∧
        later.tree.readText (workspace.sourceOf path) = .error .tooLong := by
    rcases hresembles.entered with henters | hsame
    · exact readText_alike hgrounded henters hplain hplace hresembles.tree
    · exact .inl (by rw [hsame])
  rw [Workspace.asset?, Workspace.asset?, hresembles.setting, hfind]
  dsimp only
  rw [hsource, hlater, hresembles.project]
  rcases hread with hsame | ⟨hlong, hmissing, htooLong⟩
  · exact .inl (by rw [hsame])
  · rw [hmissing, htooLong]
    exact .inr ⟨hlong, rfl, rfl⟩

/-- What a run has to write is the same in workspaces that resemble each other. -/
theorem Resembles.bindings? (hresembles : workspace.Resembles path later)
    (hgrounded : workspace.tree.IsGrounded) (htidy : workspace.Tidy path) :
    later.bindings? path = workspace.bindings? path ∨
      HasLongName (workspace.sourceOf path) ∧
        workspace.bindings? path = .error (.file (workspace.sourceOf path) .notFound) ∧
        later.bindings? path = .error (.file (workspace.sourceOf path) .tooLong) := by
  have htext (asset : Asset) : later.bindingsText asset = workspace.bindingsText asset := by
    rw [bindingsText, bindingsText, elementTypes, elementTypes, hresembles.project, hresembles.types]
  unfold Workspace.bindings? ready?
  rw [hresembles.project]
  by_cases henabled : workspace.project.enabled = true
  · rw [if_pos henabled, if_pos henabled]
    rcases hresembles.asset? hgrounded htidy with hsame | ⟨hlong, hmissing, htooLong⟩
    · left
      simp only [hsame, htext]
    · right
      rw [hmissing, htooLong]
      exact ⟨hlong, rfl, rfl⟩
  · left
    rw [if_neg henabled, if_neg henabled]

/-- A tidy file that can be read is in a root that can be entered. -/
theorem Tidy.enters (htidy : workspace.Tidy path) {asset : Asset}
    (hasset : workspace.asset? path = .ok asset) : Enters workspace.tree workspace.root := by
  obtain ⟨setting, hfind, hpath, hplain, -⟩ := htidy.source
  rw [Workspace.asset?, hfind] at hasset
  dsimp only at hasset
  rw [hpath] at hasset
  split at hasset
  · cases hasset
  · rename_i markup hread
    obtain ⟨place, hplace, -⟩ := bind_eq_ok_iff.1 hread
    exact enters_of_locationOf (Pathname.isAbsolute_of_isPlain hplain) hplace

end Sources

section Placing

variable {workspace later : Workspace} {path : String} {asset : Asset} {text : GeneratedText}

/-- What comes after bindings were written or not. -/
def finishPlacing (workspace : Workspace) (asset : Asset) (written : Except (Pathname × Fault) Unit)
    (tree : FileTree) : Except (Pathname × Fault) Unit × FileTree :=
  match written with
  | .error fault => (.error fault, tree)
  | .ok () =>
    (.ok (), withoutStale (workspace.withTree tree) asset.setting.lastBindings asset.bindingsPath)

/-- What a run does to the files of a tree once it has something to write. -/
def placing (workspace : Workspace) (asset : Asset) (text : GeneratedText) (tree : FileTree) :
    Except (Pathname × Fault) Unit × FileTree :=
  let written := tree.writeWithParents (workspace.locate asset.bindingsPath) (.text text.code)
  finishPlacing workspace asset written.1 written.2

/-- Of the workspace, only the root matters. -/
theorem placing_of_root (hroot : later.root = workspace.root) :
    placing later asset text = placing workspace asset text := by
  have hlocate (entry : Pathname) : later.locate entry = workspace.locate entry := by
    rw [Workspace.locate, Workspace.locate, hroot]
  have hstale (tree : FileTree) (previous : Option Pathname) (current : Pathname) :
      withoutStale (later.withTree tree) previous current =
        withoutStale (workspace.withTree tree) previous current := by
    unfold withoutStale
    cases previous with
    | none => rfl
    | some last =>
      have hplace : (later.withTree tree).locate last = (workspace.withTree tree).locate last :=
        hlocate last
      dsimp only
      rw [hplace]
      rfl
  funext tree
  simp only [placing, finishPlacing, hlocate, hstale]

/-- The last piece of an output is the name of the bindings. -/
theorem exists_last_bindingsPath (hasset : workspace.asset? path = .ok asset) :
    ∃ init last, asset.bindingsPath.pieces = init ++ [last] ∧ Pathname.isIdle last = false :=
  exists_last_of_suffix (by decide) (by decide) (namesBindings_of_asset? hasset)

/-- The footprint of a file that can be read is its source, its output and what was recorded. -/
theorem footprint_of_asset? (hasset : workspace.asset? path = .ok asset) :
    workspace.footprint path =
      ⟨asset.setting.path⟩ :: ([asset.bindingsPath] ++ recordedPaths asset.setting) := by
  obtain ⟨hfind, -⟩ := asset?_eq_ok hasset
  rw [footprint, hfind, outputPaths, hasset]

/-- Cleaning up after bindings were written is done within the places of the file. -/
theorem actsWithin_finishPlacing {tree : FileTree} (hgrows : Grows workspace.tree tree)
    (hgrounded : tree.IsGrounded) (htidy : workspace.Tidy path)
    (hasset : workspace.asset? path = .ok asset) (written : Except (Pathname × Fault) Unit) :
    ActsWithin (workspace.places path) tree (finishPlacing workspace asset written) := by
  cases written with
  | error fault => exact actsWithin_pure (Except.error fault)
  | ok =>
    have hcleaning : ActsWithin (workspace.places path) tree fun later =>
        ((), withoutStale (workspace.withTree later) asset.setting.lastBindings
          asset.bindingsPath) := by
      have henters := (htidy.enters hasset).grow hgrows
      refine actsWithin_withoutStale _ hgrounded henters fun last hrecorded entry hentry => ?_
      have hmem : entry ∈ workspace.footprint path := by
        rw [footprint_of_asset? hasset, recordedPaths, hrecorded]
        exact List.mem_cons_of_mem _ (List.mem_append_right _ hentry)
      rw [hgrows.home]
      exact ⟨htidy.plain entry hmem, List.mem_map_of_mem hmem⟩
    exact hcleaning.andThen fun _ _ _ => actsWithin_pure (Except.ok ())

/-- Writing bindings and cleaning up is done within the places of the file. -/
theorem actsWithin_placing (hgrounded : workspace.tree.IsGrounded) (htidy : workspace.Tidy path)
    (hasset : workspace.asset? path = .ok asset) (text : GeneratedText) :
    ActsWithin (workspace.places path) workspace.tree (placing workspace asset text) := by
  have henters := htidy.enters hasset
  have hmem : asset.bindingsPath ∈ workspace.footprint path := by
    rw [footprint_of_asset? hasset]
    exact List.mem_cons_of_mem _ (List.mem_append_left _ (List.mem_singleton.2 rfl))
  have hplain := htidy.plain _ hmem
  have hplace : placeOf workspace.tree.home (workspace.root.join asset.bindingsPath) ∈
      workspace.places path :=
    List.mem_map_of_mem hmem
  obtain ⟨init, last, hpieces, hlast⟩ := exists_last_bindingsPath hasset
  have hwriting := actsWithin_writeWithParents henters hplain hpieces hlast hplace (.text text.code)
  have hgrows := grows_writeWithParents workspace.tree (workspace.root.join asset.bindingsPath)
    (.text text.code)
  have hstill := hgrounded.writeWithParents henters hplain hpieces hlast (.text text.code)
  have hfinishing (written : Except (Pathname × Fault) Unit) (made : FileTree)
      (hmade : workspace.tree.writeWithParents (workspace.root.join asset.bindingsPath)
        (.text text.code) = (written, made)) :
      ActsWithin (workspace.places path) made (finishPlacing workspace asset written) := by
    rw [hmade] at hgrows hstill
    exact actsWithin_finishPlacing hgrows hstill htidy hasset written
  have hparts := hwriting.andThen hfinishing
  exact hparts.of_eq fun later _ => rfl

end Placing

/-- What a run does to a project: it edits files, and it may record where bindings were written. -/
structure Effect where
  edits : List FileTree.Edit
  record : Option Pathname

/-- The setting with a path of bindings recorded. -/
def withLast (bindings : Pathname) (setting : AssetOptions) : AssetOptions :=
  { setting with lastBindings := some bindings }

namespace Effect

/-- The settings after bindings were recorded for a key. -/
def recordFor (effect : Effect) (key : String) (settings : Settings) : Settings :=
  match effect.record with
  | none => settings
  | some bindings => settings.change key (withLast bindings)

/-- A run for a key has an effect on a workspace, and no other one. -/
structure TakesTo (effect : Effect) (key : String) (before after : Workspace) : Prop where
  tree : after.tree = applyAll effect.edits before.tree
  settings : after.settings = effect.recordFor key before.settings
  root : after.root = before.root
  types : after.sessionTypes = before.sessionTypes
  memory : after.InMemory

/-- Recording bindings keeps the settings of the project and those for other keys. -/
theorem find?_recordFor (effect : Effect) {key other : String} (settings : Settings)
    (hother : key ≠ other) :
    (effect.recordFor key settings).project = settings.project ∧
      (effect.recordFor key settings).find? other = settings.find? other := by
  unfold recordFor
  cases effect.record with
  | none => exact ⟨rfl, rfl⟩
  | some bindings =>
    have hkeeps (setting : AssetOptions) (hpath : setting.path = key) :
        (withLast bindings setting).path = key :=
      hpath
    exact ⟨rfl, (find?_change settings other hkeeps).trans (if_neg hother)⟩

end Effect

section Runs

variable {workspace later : Workspace} {path : String} {asset : Asset} {text : GeneratedText}

/-- A setting in memory is changed if it exists. -/
theorem execute_change_of_isSome (hmemory : workspace.InMemory) (path : String)
    (edit : AssetOptions → AssetOptions)
    (hfind : (workspace.settings.find? (keyOf path)).isSome) :
    ∃ saves, (change path edit).execute workspace =
      (.ok (), workspace.remembering (workspace.settings.change (keyOf path) edit) saves) := by
  obtain ⟨setting, hfind⟩ := Option.isSome_iff_exists.1 hfind
  rw [execute_change, hfind]
  have hchanged : (workspace.withSettings (workspace.settings.change (keyOf path) edit)).InMemory :=
    hmemory
  obtain ⟨saves, hsave⟩ := execute_save_of_inMemory hchanged
  exact ⟨saves, hsave⟩

/-- A run that has something to write has the effect of placing it, and records where unless the file
cannot be written. -/
theorem takesTo_of_placing {outcome : Except (Pathname × Fault) Unit} {edits : List FileTree.Edit}
    (hmemory : workspace.InMemory) (hkey : keyOf (keyOf path) = keyOf path)
    (hready : workspace.bindings? path = .ok (asset, text))
    (hplaced : placing workspace asset text workspace.tree =
      (outcome, applyAll edits workspace.tree)) :
    ((writeBindings path).execute workspace).1 =
        (fileOutcome outcome).map (fun () => bindingsReport workspace asset text) ∧
      Effect.TakesTo ⟨edits, outcome.toOption.map fun () => asset.bindingsPath⟩ (keyOf path) workspace
        ((writeBindings path).execute workspace).2 := by
  obtain ⟨hfind, -⟩ := asset?_eq_ok (asset?_of_bindings? hready)
  have hsource : keyOf asset.source = keyOf path := by
    rw [Asset.source, path_of_find? hfind, hkey]
  rw [placing] at hplaced
  rcases hwrite : workspace.tree.writeWithParents (workspace.locate asset.bindingsPath)
    (.text text.code) with ⟨⟨place, fault⟩ | ⟨⟩, written⟩
  · obtain ⟨notices, hrun⟩ := execute_writeBindings_of_unwritten hready hwrite
    rw [hwrite] at hplaced
    obtain ⟨rfl, htree⟩ := Prod.mk.inj hplaced
    rw [hrun]
    exact ⟨rfl, htree, rfl, rfl, rfl, hmemory⟩
  · obtain ⟨quiet, notices, hrun⟩ := execute_writeBindings_of_written hready hwrite
    rw [hwrite] at hplaced
    obtain ⟨rfl, htree⟩ := Prod.mk.inj hplaced
    let cleaned := (workspace.withTree (withoutStale (workspace.withTree written)
      asset.setting.lastBindings asset.bindingsPath)).withNotices quiet
    have hcleaned : cleaned.InMemory := hmemory
    have hsome : (cleaned.settings.find? (keyOf asset.source)).isSome := by
      rw [hsource]
      exact Option.isSome_iff_exists.2 ⟨_, hfind⟩
    obtain ⟨saves, hchange⟩ :=
      execute_change_of_isSome hcleaned asset.source asset.recordBindings hsome
    rw [hsource] at hchange
    dsimp only [cleaned] at hrun hchange
    rw [hchange] at hrun
    rw [hrun]
    exact ⟨rfl, htree, rfl, rfl, rfl, ⟨saves, rfl⟩⟩

/-- A run that has nothing to write has no effect. -/
theorem takesTo_of_error {failure : Failure} (hmemory : workspace.InMemory)
    (hready : workspace.bindings? path = .error failure) :
    ((writeBindings path).execute workspace).1 = .error failure ∧
      Effect.TakesTo ⟨[], none⟩ (keyOf path) workspace
        ((writeBindings path).execute workspace).2 := by
  obtain ⟨notices, hrun⟩ := execute_writeBindings_of_error hready
  rw [hrun]
  exact ⟨rfl, rfl, rfl, rfl, rfl, hmemory⟩

/-- A workspace resembles itself. -/
theorem Resembles.refl (hmemory : workspace.InMemory) (path : String) :
    workspace.Resembles path workspace :=
  ⟨rfl, rfl, hmemory, rfl, rfl, .refl _ _, .inr rfl⟩

/-- An effect is that of a run for a file: on every workspace that resembles the given one, the run has
this effect, it is within the places of the file, and what comes of the run agrees. -/
structure HasEffect (workspace : Workspace) (path : String) (effect : Effect) : Prop where
  within : ∀ edit ∈ effect.edits, edit.Within (workspace.places path)
  entered : effect.edits = [] ∨ Enters workspace.tree workspace.root
  agrees : ∀ later, workspace.Resembles path later →
    Agrees (workspace.sourceOf path) ((writeBindings path).execute workspace).1
      ((writeBindings path).execute later).1
  takesTo : ∀ later, workspace.Resembles path later →
    effect.TakesTo (keyOf path) later ((writeBindings path).execute later).2

/-- Every run for a tidy file has an effect. -/
theorem exists_hasEffect (hmemory : workspace.InMemory) (hgrounded : workspace.tree.IsGrounded)
    (htidy : workspace.Tidy path) : ∃ effect, workspace.HasEffect path effect := by
  cases hready : workspace.bindings? path with
  | error failure =>
    obtain ⟨houtcome, -⟩ := takesTo_of_error hmemory hready
    have hruns (later : Workspace) (hresembles : workspace.Resembles path later) :
        Agrees (workspace.sourceOf path) (.error failure) ((writeBindings path).execute later).1 ∧
          Effect.TakesTo ⟨[], none⟩ (keyOf path) later ((writeBindings path).execute later).2 := by
      rcases hresembles.bindings? hgrounded htidy with hsame | ⟨hlong, hmissing, htooLong⟩
      · obtain ⟨hlater, heffect⟩ := takesTo_of_error hresembles.memory (hsame.trans hready)
        rw [hlater]
        exact ⟨.same _, heffect⟩
      · obtain ⟨hlater, heffect⟩ := takesTo_of_error hresembles.memory htooLong
        obtain rfl := Except.error.inj (hready.symm.trans hmissing)
        rw [hlater]
        exact ⟨.unread hlong, heffect⟩
    exact ⟨⟨[], none⟩, nofun, .inl rfl, fun later hresembles => houtcome ▸ (hruns later hresembles).1,
      fun later hresembles => (hruns later hresembles).2⟩
  | ok ready =>
    obtain ⟨asset, text⟩ := ready
    have hasset := asset?_of_bindings? hready
    obtain ⟨outcome, edits, hedits, hplaced⟩ := actsWithin_placing hgrounded htidy hasset text
    obtain ⟨houtcome, -⟩ :=
      takesTo_of_placing hmemory htidy.key hready (hplaced _ (.refl _ workspace.tree))
    have hruns (later : Workspace) (hresembles : workspace.Resembles path later) :
        ((writeBindings path).execute later).1 = ((writeBindings path).execute workspace).1 ∧
          Effect.TakesTo ⟨edits, outcome.toOption.map fun () => asset.bindingsPath⟩ (keyOf path) later
            ((writeBindings path).execute later).2 := by
      have hlater : later.bindings? path = .ok (asset, text) := by
        rcases hresembles.bindings? hgrounded htidy with hsame | ⟨-, hmissing, -⟩
        · exact hsame.trans hready
        · rw [hready] at hmissing
          cases hmissing
      have hplacedLater := hplaced later.tree hresembles.tree
      rw [← placing_of_root hresembles.root] at hplacedLater
      obtain ⟨hlaterOutcome, heffect⟩ :=
        takesTo_of_placing hresembles.memory htidy.key hlater hplacedLater
      have hreport : bindingsReport later asset text = bindingsReport workspace asset text := by
        rw [bindingsReport, bindingsReport, Workspace.locate, Workspace.locate, hresembles.root]
      rw [houtcome, hlaterOutcome, hreport]
      exact ⟨rfl, heffect⟩
    have hagrees (later : Workspace) (hresembles : workspace.Resembles path later) :
        Agrees (workspace.sourceOf path) ((writeBindings path).execute workspace).1
          ((writeBindings path).execute later).1 := by
      rw [(hruns later hresembles).1]
      exact .same _
    exact ⟨⟨edits, outcome.toOption.map fun () => asset.bindingsPath⟩,
      { within := hedits, entered := .inr (htidy.enters hasset), agrees := hagrees,
        takesTo := fun later hresembles => (hruns later hresembles).2 }⟩

end Runs

end UxmlBindings.Workspace
