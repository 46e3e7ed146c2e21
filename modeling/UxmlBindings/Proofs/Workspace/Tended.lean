import UxmlBindings.Proofs.Files.Pieces
import UxmlBindings.Proofs.Workspace.Courses
import UxmlBindings.Proofs.Workspace.Intact

/-!
# Bindings that are looked after

A file of bindings is looked after as long as some setting records where it is: the next run for that
setting overwrites or removes it. With settings in memory, under paths that are their own keys, a
place where a run has written bindings stays looked after through all operations, as long as no file is
taken out of the project, changes leave paths and records alone, and clean-up after runs succeeds.
-/

namespace UxmlBindings.Workspace

open Binding Files FileTree Settings

/-- A setting records bindings at a place. -/
def RecordedAt (workspace : Workspace) (place : Location) : Prop :=
  ∃ setting ∈ workspace.settings.files, ∃ last, setting.lastBindings = some last ∧
    workspace.tree.locationOf (workspace.locate last) = .ok place

/-- If a file stands at a place, a setting records bindings there. -/
def Tended (place : Location) (workspace : Workspace) : Prop :=
  (workspace.tree.content? place).isSome → RecordedAt workspace place

/-- The path of every setting is its own key. -/
def OwnKeys (settings : Settings) : Prop :=
  ∀ key ∈ settings.keys, keyOf key = key

/-- The settings are in memory, and the path of each of them is its own key. -/
structure Keyed (workspace : Workspace) : Prop where
  memory : workspace.InMemory
  keys : OwnKeys workspace.settings

namespace BatchRun

/-- The place at which a run has written bindings, if it has. -/
def written? (run : BatchRun) : Option Location :=
  match run.start.bindings? run.path with
  | .error _ => none
  | .ok (asset, text) =>
    let output := run.start.locate asset.bindingsPath
    match run.start.tree.writeWithParents output (.text text.code) with
    | (.error _, _) => none
    | (.ok (), _) => some (placeOf run.start.tree.home output)

/-- Whether a run has written bindings and then could not remove those of the run before. -/
def leavesStale (run : BatchRun) : Bool :=
  match run.start.bindings? run.path with
  | .error _ => false
  | .ok (asset, text) =>
    match run.start.tree.writeWithParents (run.start.locate asset.bindingsPath) (.text text.code) with
    | (.error _, _) => false
    | (.ok (), written) =>
      asset.setting.lastBindings.any fun last =>
        !last.same asset.bindingsPath &&
          !((removeDescribed (run.start.locate last)).execute (run.start.withTree written)).1.isOk

end BatchRun

/-- The runs for bindings of which an operation consists. -/
def Operation.runs (operation : Operation) (workspace : Workspace) : List BatchRun :=
  match operation with
  | .writeBindings path => [⟨path, workspace⟩]
  | .writeAllBindings => if workspace.project.enabled then projectRuns workspace else []
  | _ => []

/-- All runs for bindings in a sequence of operations. -/
def bindingsRuns : List Operation → Workspace → List BatchRun
  | [], _ => []
  | operation :: rest, workspace =>
    operation.runs workspace ++ bindingsRuns rest (operation.after workspace)

/-- An operation keeps track of bindings: it takes no file out of the project, takes files in under
their own keys only, and leaves the paths and records of settings alone where it changes them. -/
def Operation.KeepsTrack : Operation → Prop
  | .enable path => keyOf (keyOf path) = keyOf path
  | .disable _ => False
  | .change _ edit =>
    ∀ setting, (edit setting).path = setting.path ∧
      (edit setting).lastBindings = setting.lastBindings
  | _ => True

/-- No file comes to stand at a place. -/
structure AddsNone (place : Location) (earlier later : FileTree) : Prop
    extends Grows earlier later where
  content : (later.content? place).isSome → (earlier.content? place).isSome

section Trees

variable {tree made later : FileTree} {place : Location} {path : Pathname} {content : Content}

theorem AddsNone.refl (place : Location) (tree : FileTree) : AddsNone place tree tree :=
  ⟨.refl tree, id⟩

theorem AddsNone.trans (hfirst : AddsNone place tree made) (hsecond : AddsNone place made later) :
    AddsNone place tree later :=
  ⟨hfirst.toGrows.trans hsecond.toGrows, hfirst.content ∘ hsecond.content⟩

theorem addsNone_of_keepsFiles (hkeeps : KeepsFiles tree later) (place : Location) :
    AddsNone place tree later :=
  ⟨hkeeps.toGrows, fun hsome => hkeeps.content place ▸ hsome⟩

theorem addsNone_of_writes (hother : placeOf tree.home path ≠ place)
    (hwrites : Writes path content tree later) : AddsNone place tree later := by
  refine ⟨hwrites.toGrows, fun hsome => ?_⟩
  rwa [hwrites.content, if_neg hother] at hsome

theorem addsNone_of_removes (hremoves : Removes path tree later) (place : Location) :
    AddsNone place tree later := by
  refine ⟨hremoves.toGrows, fun hsome => ?_⟩
  rw [hremoves.content] at hsome
  split at hsome
  · cases hsome
  · exact hsome

theorem addsNone_writeWithParents (hother : placeOf tree.home path ≠ place) (content : Content) :
    AddsNone place tree (tree.writeWithParents path content).2 := by
  have hspec := writeWithParents_spec tree path content
  generalize tree.writeWithParents path content = written at hspec ⊢
  obtain ⟨fault | ⟨⟩, later⟩ := written
  · exact addsNone_of_keepsFiles hspec place
  · exact addsNone_of_writes hother hspec

theorem addsNone_withoutFile (tree : FileTree) (path : Pathname) (place : Location) :
    AddsNone place tree (withoutFile tree path) := by
  unfold withoutFile
  split
  · rename_i later hremove
    exact addsNone_of_removes (removes_of_removeFile hremove) place
  · exact .refl place tree

theorem addsNone_withoutDescription (hcleaned : withoutDescription? tree path = some later)
    (place : Location) : AddsNone place tree later := by
  unfold withoutDescription? at hcleaned
  split at hcleaned
  · rename_i removed hremove
    obtain rfl := Option.some.inj hcleaned
    exact addsNone_of_removes (removes_of_removeFile hremove) place
  · obtain rfl := Option.some.inj hcleaned
    exact .refl place tree
  · cases hcleaned

theorem addsNone_withoutDescribed (tree : FileTree) (path : Pathname) (place : Location) :
    AddsNone place tree (withoutDescribed tree path) := by
  unfold withoutDescribed
  split
  · exact .refl place tree
  · rename_i cleaned hcleaned
    exact (addsNone_withoutDescription hcleaned place).trans (addsNone_withoutFile cleaned path place)

theorem addsNone_withoutStale (workspace : Workspace) (previous : Option Pathname)
    (current : Pathname) (place : Location) :
    AddsNone place workspace.tree (withoutStale workspace previous current) := by
  unfold withoutStale
  split
  · exact .refl place _
  · split
    · exact .refl place _
    · exact addsNone_withoutDescribed _ _ place

end Trees

section Settings

variable {before after : Workspace} {place : Location}

/-- What is recorded before is recorded after. -/
def RecordsKept (before after : Settings) : Prop :=
  ∀ setting ∈ before.files, ∃ other ∈ after.files, other.lastBindings = setting.lastBindings

theorem RecordsKept.refl (settings : Settings) : RecordsKept settings settings :=
  fun setting hsetting => ⟨setting, hsetting, rfl⟩

theorem recordsKept_add {settings : Settings} {setting : AssetOptions}
    (hnone : settings.find? setting.path = none) : RecordsKept settings (settings.add setting) :=
  fun other hother => ⟨other, mem_add_of_mem hnone hother, rfl⟩

theorem recordsKept_change {settings : Settings} {path : String}
    {edit : AssetOptions → AssetOptions}
    (hedit : ∀ setting, (edit setting).path = setting.path ∧
      (edit setting).lastBindings = setting.lastBindings) :
    RecordsKept settings (settings.change path edit) := by
  intro setting hsetting
  rcases mem_change_or_find? hsetting with hkept | hfind
  · exact ⟨setting, hkept, rfl⟩
  · have hpath (other : AssetOptions) (hother : other.path = path) : (edit other).path = path :=
      (hedit other).1.trans hother
    have hchanged := find?_change settings path hpath
    rw [if_pos rfl, hfind] at hchanged
    exact ⟨edit setting, List.mem_of_find?_eq_some hchanged, (hedit setting).2⟩

/-- A record keeps leading to its place. -/
theorem RecordedAt.keep (hrecorded : RecordedAt before place)
    (hrecords : RecordsKept before.settings after.settings) (hroot : after.root = before.root)
    (hgrows : Grows before.tree after.tree) : RecordedAt after place := by
  obtain ⟨setting, hsetting, last, hlast, hpath⟩ := hrecorded
  obtain ⟨other, hother, hsame⟩ := hrecords setting hsetting
  refine ⟨other, hother, last, hsame.trans hlast, ?_⟩
  rw [locate, hroot]
  exact hgrows.locationOf hpath

/-- Where no file is added and all records are kept, a place remains looked after. -/
theorem Tended.keep (htended : Tended place before)
    (hrecords : RecordsKept before.settings after.settings) (hroot : after.root = before.root)
    (hadds : AddsNone place before.tree after.tree) : Tended place after := fun hsome =>
  (htended (hadds.content hsome)).keep hrecords hroot hadds.toGrows

/-- A place remains looked after where a setting is changed, if no file is left at the place to which
the record of this setting has led. -/
theorem Tended.keep_change {key : String} {edit : AssetOptions → AssetOptions}
    {setting : AssetOptions} (htended : Tended place before)
    (hsettings : after.settings = before.settings.change key edit)
    (hfind : before.settings.find? key = some setting) (hroot : after.root = before.root)
    (hadds : AddsNone place before.tree after.tree)
    (hgone : ∀ last, setting.lastBindings = some last →
      before.tree.locationOf (before.locate last) = .ok place → after.tree.content? place = none) :
    Tended place after := by
  intro hsome
  obtain ⟨other, hother, last, hlast, hpath⟩ := htended (hadds.content hsome)
  have hmem : other ∈ (before.settings.change key edit).files ∨
      before.settings.find? key = some other :=
    mem_change_or_find? hother
  rcases hmem with hkept | hchanged
  · refine ⟨other, hsettings ▸ hkept, last, hlast, ?_⟩
    rw [locate, hroot]
    exact hadds.toGrows.locationOf hpath
  · obtain rfl : setting = other := Option.some.inj (hfind.symm.trans hchanged)
    rw [hgone last hlast hpath] at hsome
    cases hsome

end Settings

section Courses

variable {edits : Settings → Settings → Prop} {reason : Prop} {workspace before after : Workspace}

/-- Settings in memory remain in memory through a course, and the project stays where it is. -/
theorem Course.inMemory (hcourse : Course edits reason before after) (hmemory : before.InMemory) :
    after.InMemory ∧ after.root = before.root := by
  induction hcourse with
  | refl => exact ⟨hmemory, rfl⟩
  | @tail middle after _ hstep ih =>
    obtain ⟨hmiddle, hroot⟩ := ih
    have hsaved {settings : Settings} {outcome : Except Failure Unit}
        (hsave : Workspace.save.execute (middle.withSettings settings) = (outcome, after)) :
        after.InMemory ∧ after.root = before.root := by
      have hmemory : (middle.withSettings settings).InMemory := hmiddle
      obtain ⟨saves, hexecute⟩ := execute_save_of_inMemory hmemory
      obtain ⟨-, rfl⟩ := Prod.mk.inj (hexecute.symm.trans hsave)
      exact ⟨⟨saves, rfl⟩, hroot⟩
    cases hstep with
    | note notices => exact ⟨hmiddle, hroot⟩
    | files hfiles hkeeps => exact ⟨hmiddle, hroot⟩
    | saved hedit hsave => exact hsaved hsave
    | unsaved hedit _ hsave => exact hsaved hsave

/-- A run of the bindings of a file keeps all paths their own keys. -/
theorem Keyed.run {run : BatchRun} (hkeyed : Keyed run.start) : Keyed run.after := by
  have hcourse := course_after run
  refine ⟨(hcourse.inMemory hkeyed.memory).1, ?_⟩
  let same (settings : Settings) : Prop := settings.keys = run.start.settings.keys
  have hstart : same run.start.settings := rfl
  have hkeys : same run.after.settings :=
    hcourse.settings (fun _ _ hedit hsame => hedit.keys.trans hsame) hstart
  exact fun key hkey => hkeyed.keys key (hkeys ▸ hkey)

/-- So does an operation that keeps track. -/
theorem Keyed.operation {operation : Operation} (hkeyed : Keyed workspace)
    (hkeeps : operation.KeepsTrack) : Keyed (operation.after workspace) := by
  have hcourse := operation.course workspace
  refine ⟨(hcourse.inMemory hkeyed.memory).1, ?_⟩
  refine hcourse.settings (fun settings settings' hedit hkeys => ?_) hkeyed.keys
  cases operation with
  | enable path =>
    obtain ⟨rfl, rfl⟩ := hedit
    intro key hkey
    rcases mem_keys_add.1 hkey with rfl | hold
    · exact hkeeps
    · exact hkeys key hold
  | disable path => exact hkeeps.elim
  | change path edit =>
    obtain ⟨rfl, rfl⟩ := hedit
    intro key hkey
    obtain ⟨setting, hsetting, rfl⟩ := List.mem_map.1 hkey
    rcases mem_of_mem_changeSetting hsetting with hold | ⟨other, hother, rfl⟩
    · exact hkeys _ (List.mem_map_of_mem hold)
    · rw [(hkeeps other).1]
      exact hkeys _ (List.mem_map_of_mem hother)
  | _ =>
    unfold OwnKeys
    rw [hedit.keys]
    exact hkeys

end Courses

namespace BatchRun

variable {run : BatchRun} {asset : Asset} {text : GeneratedText} {written : FileTree}
  {place : Location}

/-- A run has written bindings at a place exactly if it has written the bindings of some asset there. -/
theorem written?_eq_some_iff :
    run.written? = some place ↔ ∃ asset text written, run.Places asset text written ∧
      placeOf run.start.tree.home (run.start.locate asset.bindingsPath) = place := by
  unfold written?
  constructor
  · intro hwritten
    split at hwritten
    · cases hwritten
    rename_i asset text hready
    dsimp only at hwritten
    split at hwritten
    · cases hwritten
    rename_i written hwrite
    exact ⟨asset, text, written, ⟨hready, hwrite⟩, Option.some.inj hwritten⟩
  · rintro ⟨asset, text, written, ⟨hready, hwrite⟩, rfl⟩
    rw [hready]
    dsimp only
    rw [hwrite]

/-- A run that succeeds has written bindings where its output leads. -/
theorem written?_of_outcome {report : Report} (hreport : run.outcome = .ok report) :
    ∃ place, run.written? = some place ∧ run.after.tree.locationOf report.output = .ok place := by
  obtain ⟨asset, text, written, hplaces⟩ := exists_places hreport
  refine ⟨_, written?_eq_some_iff.2 ⟨asset, text, written, hplaces, rfl⟩, ?_⟩
  rw [(saves_of_places hplaces).2 report hreport]
  exact locationOf_batchEnd hplaces []

/-- Bindings are written under names of bindings only. -/
theorem namedBindings_of_written? (hwritten : run.written? = some place) :
    namedBindings place = true := by
  obtain ⟨asset, text, written, hplaces, rfl⟩ := written?_eq_some_iff.1 hwritten
  exact namedBindings_place (asset?_of_bindings? hplaces.ready) _

/-- A run that writes bindings records them and cleans up, and does nothing else if the settings are
in memory. -/
theorem after_of_places (hmemory : run.start.InMemory) (hplaces : run.Places asset text written) :
    run.after.settings =
        run.start.settings.change (keyOf asset.source) asset.recordBindings ∧
      run.after.tree = withoutStale (run.start.withTree written) asset.setting.lastBindings
        asset.bindingsPath := by
  obtain ⟨last, hafter⟩ := run.after_eq
  obtain ⟨quiet, notices, hrun⟩ := execute_writeBindings_of_written hplaces.ready hplaces.write
  let cleaned := (run.start.withTree (withoutStale (run.start.withTree written)
    asset.setting.lastBindings asset.bindingsPath)).withNotices quiet
  have hcleaned : cleaned.InMemory := hmemory
  obtain ⟨outcome, saves, hchange⟩ :=
    execute_change_of_inMemory hcleaned asset.source asset.recordBindings
  rw [hafter, hrun]
  dsimp only
  rw [hchange]
  exact ⟨rfl, rfl⟩

/-- A run that writes no bindings leaves the settings alone. -/
theorem settings_of_not_places (hplaces : ¬ ∃ asset text written, run.Places asset text written) :
    run.after.settings = run.start.settings := by
  obtain ⟨last, hafter⟩ := run.after_eq
  rw [hafter]
  cases hready : run.start.bindings? run.path with
  | error failure =>
    obtain ⟨notices, hrun⟩ := execute_writeBindings_of_error hready
    rw [hrun]
    rfl
  | ok ready =>
    obtain ⟨asset, text⟩ := ready
    rcases hwrite : run.start.tree.writeWithParents (run.start.locate asset.bindingsPath)
      (.text text.code) with ⟨⟨place, fault⟩ | ⟨⟩, tree⟩
    · obtain ⟨notices, hrun⟩ := execute_writeBindings_of_unwritten hready hwrite
      rw [hrun]
      rfl
    · exact absurd ⟨asset, text, tree, hready, hwrite⟩ hplaces

/-- The setting of an asset is found under the key of its path, which is the path. -/
theorem find?_source (hkeyed : Keyed run.start) (hplaces : run.Places asset text written) :
    run.start.settings.find? (keyOf asset.source) = some asset.setting := by
  obtain ⟨hfind, -⟩ := asset?_eq_ok (asset?_of_bindings? hplaces.ready)
  have hsource : asset.source = keyOf run.path := path_of_find? hfind
  have hkey : keyOf run.path ∈ run.start.settings.keys :=
    isSome_find?_iff.1 (by rw [hfind]; rfl)
  rw [hsource, hkeyed.keys _ hkey]
  exact hfind

/-- The place at which a run has written bindings is recorded after it. -/
theorem recordedAt_of_places (hkeyed : Keyed run.start) (hplaces : run.Places asset text written) :
    RecordedAt run.after (placeOf run.start.tree.home (run.start.locate asset.bindingsPath)) := by
  obtain ⟨hsettings, htree⟩ := after_of_places hkeyed.memory hplaces
  have hfind := find?_source hkeyed hplaces
  have hedit (setting : AssetOptions) (hpath : setting.path = keyOf asset.source) :
      (asset.recordBindings setting).path = keyOf asset.source :=
    hpath
  have hrecorded := find?_change run.start.settings (keyOf asset.source) hedit
  rw [if_pos rfl, hfind, ← hsettings] at hrecorded
  refine ⟨_, List.mem_of_find?_eq_some hrecorded, asset.bindingsPath, rfl, ?_⟩
  rw [(continues_after run).locate]
  exact locationOf_batchEnd hplaces []

/-- Nothing was in the way of removing the bindings of the run before if no stale ones are left. -/
theorem removalDescribed_of_not_leavesStale (hstale : run.leavesStale = false)
    (hplaces : run.Places asset text written) {last : Pathname}
    (hlast : asset.setting.lastBindings = some last)
    (hother : last.same asset.bindingsPath = false) :
    ∃ there, removalDescribed written (run.start.locate last) = .ok there := by
  rw [leavesStale, hplaces.ready] at hstale
  dsimp only at hstale
  rw [hplaces.write] at hstale
  simp only [hlast, Option.any_some, hother, Bool.not_false, Bool.true_and,
    Bool.not_eq_false'] at hstale
  rw [execute_removeDescribed] at hstale
  cases hremoval : removalDescribed written (run.start.locate last) with
  | error fault =>
    dsimp only [withTree] at hstale
    rw [hremoval] at hstale
    cases hstale
  | ok there => exact ⟨there, rfl⟩

/-- A place that is looked after before a run that writes bindings is so after it, if the run leaves
no stale ones. -/
theorem tended_of_places (hkeyed : Keyed run.start) (hplaces : run.Places asset text written)
    (hstale : run.leavesStale = false) (htended : Tended place run.start) :
    Tended place run.after := by
  by_cases hown : placeOf run.start.tree.home (run.start.locate asset.bindingsPath) = place
  · exact fun _ => hown ▸ recordedAt_of_places hkeyed hplaces
  obtain ⟨hsettings, htree⟩ := after_of_places hkeyed.memory hplaces
  have hwritten : AddsNone place run.start.tree written := addsNone_of_writes hown hplaces.writes
  have hcleaned := addsNone_withoutStale (run.start.withTree written) asset.setting.lastBindings
    asset.bindingsPath place
  rw [← htree] at hcleaned
  refine htended.keep_change hsettings (find?_source hkeyed hplaces) (continues_after run).root
    (hwritten.trans hcleaned) fun last hlast hpath => ?_
  cases hsame : last.same asset.bindingsPath with
  | true =>
    refine absurd ?_ hown
    rw [eq_placeOf hpath]
    exact (placeOf_join_of_same run.start.root hsame run.start.tree.home).symm
  | false =>
    obtain ⟨there, hremoval⟩ := removalDescribed_of_not_leavesStale hstale hplaces hlast hsame
    have hreached : written.locationOf (run.start.locate last) = .ok place :=
      hwritten.toGrows.locationOf hpath
    rw [htree, hlast, withoutStale, if_neg (by simp [hsame])]
    exact (content?_withoutDescribed hremoval place).trans (if_pos (.inl hreached))

/-- A place is looked after after a run for bindings that leaves no stale ones, if it was so before or
the run has written bindings there. -/
theorem tended_after (hkeyed : Keyed run.start) (hstale : run.leavesStale = false)
    (hplace : Tended place run.start ∨ run.written? = some place) : Tended place run.after := by
  by_cases hplaces : ∃ asset text written, run.Places asset text written
  · obtain ⟨asset, text, written, hplaces⟩ := hplaces
    rcases hplace with htended | hwritten
    · exact tended_of_places hkeyed hplaces hstale htended
    · obtain ⟨asset', text', written', hplaces', rfl⟩ := written?_eq_some_iff.1 hwritten
      exact fun _ => recordedAt_of_places hkeyed hplaces'
  · obtain ⟨-, hkeeps, hroot, -⟩ := of_not_places hplaces
    rcases hplace with htended | hwritten
    · have hrecords : RecordsKept run.start.settings run.after.settings := by
        rw [settings_of_not_places hplaces]
        exact .refl _
      exact htended.keep hrecords hroot (addsNone_of_keepsFiles hkeeps place)
    · obtain ⟨asset, text, written, hwrites, -⟩ := written?_eq_some_iff.1 hwritten
      exact absurd ⟨asset, text, written, hwrites⟩ hplaces

end BatchRun

/-- The same holds of a batch. -/
theorem tended_batchEnd {place : Location} {paths : List String} {workspace : Workspace}
    (hkeyed : Keyed workspace) (hstale : ∀ run ∈ batchRuns paths workspace, run.leavesStale = false)
    (hplace : Tended place workspace ∨
      ∃ run ∈ batchRuns paths workspace, run.written? = some place) :
    Tended place (batchEnd paths workspace) := by
  induction paths generalizing workspace with
  | nil =>
    rcases hplace with htended | ⟨run, hrun, -⟩
    · exact htended
    · cases hrun
  | cons path rest ih =>
    let run : BatchRun := ⟨path, workspace⟩
    have hfirst : run.leavesStale = false := hstale run (List.mem_cons_self ..)
    refine ih hkeyed.run (fun other hother => hstale other (List.mem_cons_of_mem run hother)) ?_
    rcases hplace with htended | ⟨other, hother, hwritten⟩
    · exact .inl (BatchRun.tended_after hkeyed hfirst (.inl htended))
    · rcases List.mem_cons.1 hother with rfl | hrest
      · exact .inl (BatchRun.tended_after hkeyed hfirst (.inr hwritten))
      · exact .inr ⟨other, hrest, hwritten⟩

section Operations

variable {workspace : Workspace} {place : Location}

theorem tended_enable (hkeyed : Keyed workspace) (htended : Tended place workspace) (path : String) :
    Tended place ((enable path).execute workspace).2 := by
  obtain ⟨notices, hrun⟩ := execute_enable workspace path
  rw [hrun]
  cases hfind : workspace.settings.find? (keyOf path) with
  | some setting => exact htended
  | none =>
    let added := workspace.withSettings
      (workspace.settings.add (.initial (keyOf path) workspace.project))
    have hadded : added.InMemory := hkeyed.memory
    obtain ⟨saves, hsave⟩ := execute_save_of_inMemory hadded
    dsimp only
    rw [hsave]
    have hrecords : RecordsKept workspace.settings added.settings := recordsKept_add hfind
    exact htended.keep hrecords rfl (.refl place workspace.tree)

theorem tended_change (hkeyed : Keyed workspace) (htended : Tended place workspace) (path : String)
    {edit : AssetOptions → AssetOptions}
    (hedit : ∀ setting, (edit setting).path = setting.path ∧
      (edit setting).lastBindings = setting.lastBindings) :
    Tended place ((change path edit).execute workspace).2 := by
  obtain ⟨outcome, saves, hrun⟩ := execute_change_of_inMemory hkeyed.memory path edit
  rw [hrun]
  have hrecords : RecordsKept workspace.settings (workspace.settings.change (keyOf path) edit) :=
    recordsKept_change hedit
  exact htended.keep hrecords rfl (.refl place workspace.tree)

/-- A script is not named like bindings, so none is written where bindings belong. -/
theorem tended_writeScript (hkeyed : Keyed workspace) (hname : namedBindings place = true)
    (htended : Tended place workspace) (path : String) :
    Tended place ((writeScript path).execute workspace).2 := by
  obtain ⟨outcome, later, hrun, -, hsettings, htree⟩ := writeScript_of_inMemory hkeyed.memory path
  have hroot := ((course_writeScript workspace path).inMemory hkeyed.memory).2
  rw [hrun] at hroot ⊢
  have hrecords : RecordsKept workspace.settings later.settings := by
    rcases hsettings with hsame | ⟨asset, hchange⟩
    · rw [hsame]
      exact .refl _
    · rw [hchange]
      exact recordsKept_change fun _ => ⟨rfl, rfl⟩
  refine htended.keep hrecords hroot ?_
  cases hready : workspace.script? path with
  | error failure =>
    rw [hready] at htree
    rw [htree]
    exact .refl place _
  | ok ready =>
    obtain ⟨asset, text⟩ := ready
    obtain ⟨hasset, hscript⟩ := script?_eq_ok hready
    rw [hready] at htree
    dsimp only at htree
    rw [htree]
    unfold withScript
    split
    · exact .refl place _
    · apply addsNone_writeWithParents
      rintro rfl
      rw [(not_named_scriptPath hasset hscript _).1] at hname
      cases hname

/-- If the bindings of a file are removed and forgotten, no file is left where they were recorded. -/
theorem tended_removeBindings (hkeyed : Keyed workspace) (htended : Tended place workspace)
    (path : String) : Tended place ((removeBindings path).execute workspace).2 := by
  obtain ⟨notices, hrun⟩ := execute_removeBindings workspace path
  cases hfind : workspace.settings.find? (keyOf path) with
  | none =>
    rw [hrun, hfind]
    exact htended
  | some setting =>
    cases hlast : setting.lastBindings with
    | none =>
      rw [hrun, hfind]
      dsimp only
      rw [hlast]
      exact htended
    | some last =>
      rw [hrun, hfind]
      dsimp only
      rw [hlast]
      obtain ⟨quiet, hremove⟩ := execute_removeRecorded workspace (keyOf path) (workspace.locate last)
      dsimp only
      rw [hremove]
      let cleared := workspace.withTree (withoutDescribed workspace.tree (workspace.locate last))
      have hadds : AddsNone place workspace.tree cleared.tree := addsNone_withoutDescribed _ _ place
      have hmemory : cleared.InMemory := hkeyed.memory
      dsimp only
      cases hremoval : removalDescribed workspace.tree (workspace.locate last) with
      | error fault => exact htended.keep (.refl workspace.settings) rfl hadds
      | ok there =>
        have hown : keyOf (keyOf path) = keyOf path :=
          hkeyed.keys _ (isSome_find?_iff.1 (by rw [hfind]; rfl))
        obtain ⟨changed, saves, hchange⟩ :=
          execute_change_of_inMemory hmemory (keyOf path) forgetBindings
        rw [hown] at hchange
        dsimp only [cleared] at hadds hchange ⊢
        rw [hchange]
        refine htended.keep_change rfl hfind rfl hadds fun other hother hpath => ?_
        obtain rfl := Option.some.inj (hlast.symm.trans hother)
        exact (content?_withoutDescribed hremoval place).trans (if_pos (.inl hpath))

/-- The rule that no file comes to stand at a place and nothing but files changes. -/
def thinning (place : Location) : Rule where
  holds _ := True
  allows before after := after.store = before.store ∧ after.root = before.root ∧
    AddsNone place before.tree after.tree
  refl workspace := ⟨rfl, rfl, .refl place workspace.tree⟩
  trans := fun ⟨hstore, hroot, hadds⟩ ⟨hstore', hroot', hadds'⟩ =>
    ⟨hstore'.trans hstore, hroot'.trans hroot, hadds.trans hadds'⟩
  holds_quiet _ _ _ := trivial
  allows_quiet workspace _ := ⟨rfl, rfl, .refl place workspace.tree⟩

theorem thinning_permitsRemoval (place : Location) : (thinning place).PermitsRemoval :=
  fun _ _ _ _ _ htree =>
    ⟨trivial, rfl, rfl, addsNone_of_removes (removes_of_removeFile htree) place⟩

/-- What is recorded at a place where a file stands is not forgotten. -/
theorem recordedAt_forgetMissing (hsome : (workspace.tree.content? place).isSome)
    (hrecorded : RecordedAt workspace place) :
    RecordedAt (workspace.withSettings { workspace.settings with
      files := forgetMissing workspace workspace.settings.files }) place := by
  obtain ⟨setting, hsetting, last, hlast, hpath⟩ := hrecorded
  have hholds := holds_of_content? hpath hsome
  refine ⟨setting, List.mem_map.2 ⟨setting, hsetting, ?_⟩, last, hlast, hpath⟩
  rw [hlast]
  dsimp only
  rw [if_pos hholds]

theorem tended_removeAllBindings (hkeyed : Keyed workspace) (htended : Tended place workspace) :
    Tended place (removeAllBindings.execute workspace).2 := by
  have hkeeps : Keeps (thinning place) workspace
      ((bindingsRoots workspace).foldlM removeBelow {}) fun _ => True :=
    keeps_foldlM (fun directory _ _ _ => keeps_removeBelow (thinning_permitsRemoval place) directory)
      {} trivial
  obtain ⟨hstore, hroot, hadds⟩ := hkeeps.allows
  obtain ⟨notices, hrun⟩ := execute_removeAllBindings workspace
  rw [hrun]
  generalize ((bindingsRoots workspace).foldlM removeBelow {}).execute workspace = roots
    at hstore hroot hadds ⊢
  obtain ⟨outcome, cleared⟩ := roots
  have hrecords : RecordsKept workspace.settings cleared.settings := by
    rw [Workspace.settings, Workspace.settings, hstore]
    exact .refl _
  have hcleared : Tended place cleared := htended.keep hrecords hroot hadds
  cases outcome with
  | error failure => exact hcleared
  | ok report =>
    dsimp only
    split
    · exact hcleared
    · have hforgotten : (cleared.withSettings cleared.present).InMemory := by
        obtain ⟨saves, hbacking⟩ := hkeyed.memory
        exact ⟨saves, (congrArg Store.backing hstore).trans hbacking⟩
      obtain ⟨saves, hsave⟩ := execute_save_of_inMemory hforgotten
      rw [hsave]
      exact fun hsome => recordedAt_forgetMissing hsome (hcleared hsome)

/-- A place is looked after after an operation that keeps track and leaves no stale bindings, if it was
so before or the operation has written bindings there. -/
theorem tended_operation {operation : Operation} (hkeyed : Keyed workspace)
    (hname : namedBindings place = true) (hkeeps : operation.KeepsTrack)
    (hstale : ∀ run ∈ operation.runs workspace, run.leavesStale = false)
    (hplace : Tended place workspace ∨ ∃ run ∈ operation.runs workspace, run.written? = some place) :
    Tended place (operation.after workspace) := by
  have hbefore (hruns : operation.runs workspace = []) : Tended place workspace := by
    rcases hplace with htended | ⟨run, hrun, -⟩
    · exact htended
    · rw [hruns] at hrun
      cases hrun
  cases operation with
  | enable path => exact tended_enable hkeyed (hbefore rfl) path
  | disable path => exact hkeeps.elim
  | change path edit => exact tended_change hkeyed (hbefore rfl) path hkeeps
  | openAsset path =>
    obtain ⟨notices, hrun⟩ := execute_openAsset workspace path
    rw [Operation.after, hrun]
    exact hbefore rfl
  | writeBindings path =>
    let run : BatchRun := ⟨path, workspace⟩
    obtain ⟨notices, hafter⟩ := run.after_eq
    have hone : Tended place run.after := by
      refine BatchRun.tended_after hkeyed (hstale run (List.mem_singleton.2 rfl)) ?_
      refine hplace.imp_right ?_
      rintro ⟨other, hother, hwritten⟩
      rw [List.mem_singleton.1 hother] at hwritten
      exact hwritten
    rw [hafter] at hone
    exact hone
  | writeScript path => exact tended_writeScript hkeyed hname (hbefore rfl) path
  | writeAllBindings =>
    obtain ⟨notices, hrun⟩ := execute_writeAllBindings workspace
    rw [Operation.after, hrun]
    by_cases henabled : workspace.project.enabled = true
    · have hruns : Operation.writeAllBindings.runs workspace = projectRuns workspace :=
        if_pos henabled
      rw [hruns] at hstale hplace
      rw [if_pos henabled]
      exact tended_batchEnd hkeyed hstale hplace
    · rw [if_neg henabled]
      exact hbefore (if_neg henabled)
  | removeBindings path => exact tended_removeBindings hkeyed (hbefore rfl) path
  | removeAllBindings => exact tended_removeAllBindings hkeyed (hbefore rfl)

end Operations

/-- A place is looked after at the end of a sequence of operations that keep track and leave no stale
bindings, if it was so at the start or a run has written bindings there. -/
theorem tended_afterAll {operations : List Operation} {start : Workspace} {place : Location}
    (hkeyed : Keyed start) (hname : namedBindings place = true)
    (hkeeps : ∀ operation ∈ operations, operation.KeepsTrack)
    (hstale : ∀ run ∈ bindingsRuns operations start, run.leavesStale = false)
    (hplace : Tended place start ∨
      ∃ run ∈ bindingsRuns operations start, run.written? = some place) :
    Tended place (afterAll operations start) := by
  induction operations generalizing start with
  | nil =>
    rcases hplace with htended | ⟨run, hrun, -⟩
    · exact htended
    · cases hrun
  | cons operation rest ih =>
    have hfirst : operation.KeepsTrack := hkeeps operation (List.mem_cons_self ..)
    rw [bindingsRuns] at hstale hplace
    have hnone (run : BatchRun) (hrun : run ∈ operation.runs start) : run.leavesStale = false :=
      hstale run (List.mem_append_left _ hrun)
    refine ih (hkeyed.operation hfirst)
      (fun other hother => hkeeps other (List.mem_cons_of_mem operation hother))
      (fun run hrun => hstale run (List.mem_append_right _ hrun)) ?_
    rcases hplace with htended | ⟨run, hrun, hwritten⟩
    · exact .inl (tended_operation hkeyed hname hfirst hnone (.inl htended))
    · rcases List.mem_append.1 hrun with hnow | hlater
      · exact .inl (tended_operation hkeyed hname hfirst hnone (.inr ⟨run, hnow, hwritten⟩))
      · exact .inr ⟨run, hlater, hwritten⟩

/-- Suppose settings are in memory, under paths that are their own keys, and operations keep track and
leave no stale bindings. A run for bindings that succeeds has written its output, and every file that a
run has written and that still exists is where some setting records bindings. -/
theorem recordedAt_afterAll (start : Workspace) (operations : List Operation)
    (hkeyed : Keyed start) (hkeeps : ∀ operation ∈ operations, operation.KeepsTrack)
    (hstale : ∀ run ∈ bindingsRuns operations start, run.leavesStale = false) :
    ∀ run ∈ bindingsRuns operations start,
      (∀ report, run.outcome = .ok report →
        ∃ place, run.written? = some place ∧ run.after.tree.locationOf report.output = .ok place) ∧
      ∀ place, run.written? = some place →
        ((afterAll operations start).tree.content? place).isSome →
          RecordedAt (afterAll operations start) place := by
  intro run hrun
  refine ⟨fun report hreport => BatchRun.written?_of_outcome hreport, fun place hwritten => ?_⟩
  exact tended_afterAll hkeyed (BatchRun.namedBindings_of_written? hwritten) hkeeps hstale
    (.inr ⟨run, hrun, hwritten⟩)

/-- A project with a markup file. -/
def plainProject : Workspace where
  tree := { entries := .ofList [(["Menu.uxml"], Entry.file (.text "<UXML/>"))] }
  store := .inMemory {}
  root := ⟨""⟩

/-- A history in which bindings are written, renamed and written again. -/
def renamingHistory : List Operation :=
  [.enable "Menu.uxml",
   .writeBindings "Menu.uxml",
   .change "Menu.uxml" fun setting => { setting with filePrefix := "New" },
   .writeBindings "Menu.uxml"]

/-- Both runs of this history write, and the second one removes what the first one has written. -/
theorem bindingsRuns_renamingHistory :
    (bindingsRuns renamingHistory plainProject).map (fun run => (run.written?, run.leavesStale)) =
      [(some ["Assets", "Markbind", "Menu.g.cs"], false),
       (some ["Assets", "Markbind", "NewMenu.g.cs"], false)] := by
  decide +kernel

theorem recordedAt_afterAll_renaming :
    Keyed plainProject ∧ (∀ operation ∈ renamingHistory, operation.KeepsTrack) ∧
      (∀ run ∈ bindingsRuns renamingHistory plainProject, run.leavesStale = false) ∧
      ∀ run ∈ bindingsRuns renamingHistory plainProject,
        (∀ report, run.outcome = .ok report →
          ∃ place, run.written? = some place ∧ run.after.tree.locationOf report.output = .ok place) ∧
        ∀ place, run.written? = some place →
          ((afterAll renamingHistory plainProject).tree.content? place).isSome →
            RecordedAt (afterAll renamingHistory plainProject) place := by
  have hkeyed : Keyed plainProject := ⟨⟨0, rfl⟩, nofun⟩
  have hkeeps : ∀ operation ∈ renamingHistory, operation.KeepsTrack := by
    have henable : (Operation.enable "Menu.uxml").KeepsTrack := show keyOf (keyOf _) = keyOf _ by decide
    simp only [renamingHistory, List.forall_mem_cons]
    exact ⟨henable, trivial, fun _ => ⟨rfl, rfl⟩, trivial, nofun⟩
  have hstale : ∀ run ∈ bindingsRuns renamingHistory plainProject, run.leavesStale = false := by
    intro run hrun
    have hmem := List.mem_map_of_mem (f := fun run => (run.written?, run.leavesStale)) hrun
    rw [bindingsRuns_renamingHistory] at hmem
    simp only [List.mem_cons, Prod.mk.injEq, List.not_mem_nil, or_false] at hmem
    exact hmem.elim And.right And.right
  exact ⟨hkeyed, hkeeps, hstale, recordedAt_afterAll plainProject renamingHistory hkeyed hkeeps hstale⟩

end UxmlBindings.Workspace
