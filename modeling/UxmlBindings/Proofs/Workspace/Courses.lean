import UxmlBindings.Proofs.Workspace.Steps

/-!
# Courses of operations

Every operation is a course of steps. The settings are replaced as the operation says, and where the
settings cannot be saved, the outcome of the operation tells.
-/

namespace UxmlBindings.Workspace

open Binding Files FileTree Settings

section Actions

variable {edits : Settings → Settings → Prop} {reason : Prop} {workspace : Workspace}
  {path : String} {asset : Asset}

theorem files_ne_nil_of_find? {setting : AssetOptions}
    (hfind : workspace.settings.find? path = some setting) : workspace.settings.files ≠ [] :=
  List.ne_nil_of_mem (List.mem_of_find?_eq_some hfind)

/-- A change for the key of an asset that keeps its path only changes what is recorded. -/
theorem records_change {settings : Settings} {edit : AssetOptions → AssetOptions}
    (hpath : ∀ setting, (edit setting).path = setting.path)
    (hedit : ∀ setting, RecordNamed setting → RecordNamed (edit setting)) :
    Records settings (settings.change path edit) := by
  constructor
  · exact keys_change settings fun setting hsame => (hpath setting).trans hsame
  · intro hnamed setting hmem
    rcases mem_of_mem_changeSetting hmem with hold | ⟨other, hother, rfl⟩
    · exact hnamed setting hold
    · exact hedit other (hnamed other hother)

theorem records_recordBindings {settings : Settings} (hasset : workspace.asset? path = .ok asset)
    (key : String) : Records settings (settings.change key asset.recordBindings) := by
  refine records_change (fun _ => rfl) fun _ _ last hlast => ?_
  obtain rfl := Option.some.inj hlast
  exact namesBindings_of_asset? hasset

theorem records_forgetMissing (workspace : Workspace) :
    Records workspace.settings
      { workspace.settings with files := forgetMissing workspace workspace.settings.files } := by
  refine ⟨?_, fun hnamed => recordNamed_of_mem_forgetMissing hnamed⟩
  rw [keys, forgetMissing, List.map_map]
  apply List.map_congr_left
  intro setting hsetting
  simp only [Function.comp]
  split
  · rfl
  · split <;> rfl

theorem course_enable (workspace : Workspace) (path : String) :
    Course ((Operation.enable path).Edits workspace.settings)
      (Unsaved ((enable path).execute workspace).1) workspace
      ((enable path).execute workspace).2 := by
  obtain ⟨notices, hrun⟩ := execute_enable workspace path
  rw [hrun]
  have hedit : (Operation.enable path).Edits workspace.settings workspace.settings
      (workspace.settings.add (.initial (keyOf path) workspace.project)) :=
    ⟨rfl, rfl⟩
  cases workspace.settings.find? (keyOf path) with
  | some setting => exact .refl
  | none => exact (Course.save .refl hedit).passOn _ notices

theorem course_disable (workspace : Workspace) (path : String) :
    Course ((Operation.disable path).Edits workspace.settings)
      (Unsaved ((disable path).execute workspace).1) workspace
      ((disable path).execute workspace).2 := by
  obtain ⟨notices, hrun⟩ := execute_disable workspace path
  rw [hrun]
  have hedit : (Operation.disable path).Edits workspace.settings workspace.settings
      (workspace.settings.remove (keyOf path)) :=
    ⟨rfl, rfl⟩
  cases workspace.settings.find? (keyOf path) with
  | none => exact .refl
  | some setting => exact (Course.save .refl hedit).passOn _ notices

/-- The clean-up after bindings were written removes no other files. -/
theorem keepsOthers_withoutStale {previous : Option Pathname} (workspace : Workspace)
    (hprevious : ∀ last, previous = some last → NamesBindings last) (current : Pathname) :
    KeepsOthers workspace.tree (withoutStale workspace previous current) := by
  unfold withoutStale
  split
  · exact .refl _
  · rename_i last
    split
    · exact .refl _
    · exact keepsOthers_withoutDescribed (Pathname.suffix_join (hprevious last rfl))

theorem course_writeBindings (workspace : Workspace) (path : String) :
    Course Records (Unsaved ((writeBindings path).execute workspace).1) workspace
      ((writeBindings path).execute workspace).2 := by
  cases hready : workspace.bindings? path with
  | error failure =>
    obtain ⟨notices, hrun⟩ := execute_writeBindings_of_error hready
    rw [hrun]
    exact Course.note .refl notices
  | ok ready =>
    obtain ⟨asset, text⟩ := ready
    have hasset := asset?_of_bindings? hready
    have hfind := (asset?_eq_ok hasset).1
    have hfiles := files_ne_nil_of_find? hfind
    let output := workspace.locate asset.bindingsPath
    have hname : namedOutput (placeOf workspace.tree.home output) = true :=
      namedOutput_of_namedBindings (namedBindings_place hasset _)
    have hwritten := keepsOthers_writeWithParents hname (.text text.code)
    rcases hwrite : workspace.tree.writeWithParents output (.text text.code) with
      ⟨⟨place, fault⟩ | ⟨⟩, tree⟩
    · obtain ⟨notices, hrun⟩ := execute_writeBindings_of_unwritten hready hwrite
      rw [hwrite] at hwritten
      rw [hrun]
      exact (Course.files .refl hfiles fun _ => hwritten).note notices
    · obtain ⟨quiet, notices, hrun⟩ := execute_writeBindings_of_written hready hwrite
      rw [hwrite] at hwritten
      rw [hrun]
      -- The write and the clean-up come before the save, so they are one step of files together.
      have hcleaned (hrecords : RecordsNamed workspace) : KeepsOthers workspace.tree
          (withoutStale (workspace.withTree tree) asset.setting.lastBindings asset.bindingsPath) :=
        hwritten.trans (keepsOthers_withoutStale (workspace.withTree tree)
          (hrecords asset.setting (List.mem_of_find?_eq_some hfind)) _)
      refine Course.passOn (Course.change ?_ (records_recordBindings hasset _)) _ notices
      exact (Course.files .refl hfiles hcleaned).note quiet

/-- Creating a script keeps all files that are not named like a generated one. -/
theorem keepsOthers_withScript {text : GeneratedText} (tree : FileTree)
    (hasset : workspace.asset? path = .ok asset) (hscript : asset.scriptText = .ok text) :
    KeepsOthers tree (withScript tree (workspace.locate asset.scriptPath) text.code) := by
  unfold withScript
  split
  · exact .refl _
  · apply keepsOthers_writeWithParents
    rw [namedOutput, getLast?_placeOf_scriptPath hasset hscript, Option.any_some,
      Bool.or_eq_true_iff]
    left
    rw [endsIn, List.isSuffixOf_iff_suffix, String.toList_append]
    exact List.suffix_append _ _

theorem course_writeScript (workspace : Workspace) (path : String) :
    Course Records (Unsaved ((writeScript path).execute workspace).1) workspace
      ((writeScript path).execute workspace).2 := by
  cases hready : workspace.script? path with
  | error failure =>
    obtain ⟨notices, hrun⟩ := execute_writeScript_of_error hready
    rw [hrun]
    exact Course.note .refl notices
  | ok ready =>
    obtain ⟨asset, text⟩ := ready
    obtain ⟨hasset, hscript⟩ := script?_eq_ok hready
    obtain ⟨quiet, hrun⟩ := execute_writeScript_of_ok hready
    have hfiles := files_ne_nil_of_find? (asset?_eq_ok hasset).1
    have hkeeps := keepsOthers_withScript workspace.tree hasset hscript
    have hplaced {reason : Prop} : Course Records reason workspace
        ((workspace.withTree (withScript workspace.tree (workspace.locate asset.scriptPath)
          text.code)).withNotices quiet) :=
      (Course.files .refl hfiles fun _ => hkeeps).note quiet
    have hrecord : Records workspace.settings
        (workspace.settings.change (keyOf asset.source) asset.recordScript) :=
      records_change (fun _ => rfl) fun _ hnamed => hnamed
    dsimp only at hrun
    rw [hrun]
    cases scriptOutcome workspace.tree (workspace.locate asset.scriptPath) text.code with
    | error fault => exact hplaced
    | ok outcome => exact (Course.change hplaced hrecord).passOn _ _

/-- Nothing but the record of bindings is forgotten. -/
theorem records_forget {settings : Settings} (key : String) :
    Records settings (settings.change key forgetBindings) :=
  records_change (fun _ => rfl) fun _ _ _ hlast => nomatch hlast

theorem course_removeBindings (workspace : Workspace) (path : String) :
    Course Records (Unsaved ((removeBindings path).execute workspace).1) workspace
      ((removeBindings path).execute workspace).2 := by
  obtain ⟨notices, hrun⟩ := execute_removeBindings workspace path
  rw [hrun]
  cases hfind : workspace.settings.find? (keyOf path) with
  | none => exact Course.note .refl notices
  | some setting =>
    dsimp only
    cases hlast : setting.lastBindings with
    | none => exact .refl
    | some last =>
      have hname (hrecords : RecordsNamed workspace) : NamesBindings (workspace.locate last) :=
        Pathname.suffix_join (hrecords setting (List.mem_of_find?_eq_some hfind) last hlast)
      have hcleared {reason : Prop} : Course Records reason workspace (workspace.withTree
          (withoutDescribed workspace.tree (workspace.locate last))) :=
        Course.files .refl (files_ne_nil_of_find? hfind) fun hrecords =>
          keepsOthers_withoutDescribed (hname hrecords)
      dsimp only
      obtain ⟨notices, hremove⟩ :=
        execute_removeRecorded workspace (keyOf path) (workspace.locate last)
      rw [hremove]
      cases removalDescribed workspace.tree (workspace.locate last) with
      | error fault => exact hcleared
      | ok there => exact (Course.change hcleared (records_forget _)).passOn _ notices

/-- The rule that a project with settings of files goes on in steps. -/
def coursing (edits : Settings → Settings → Prop) (reason : Prop) : Rule where
  holds workspace := workspace.settings.files ≠ []
  allows := Course edits reason
  refl _ := .refl
  trans hfirst hsecond := hfirst.trans hsecond
  holds_quiet _ _ hholds := hholds
  allows_quiet _ notices := Course.note .refl notices

theorem coursing_permitsRemoval : (coursing edits reason).PermitsRemoval := by
  intro workspace path tree hholds hpath htree
  have hname : namedOutput (placeOf workspace.tree.home path) = true :=
    (named_of_isBindingsPath hpath _).elim namedOutput_of_namedBindings
      namedOutput_of_namedDescription
  exact ⟨hholds, Course.files .refl hholds fun _ =>
    keepsOthers_of_removes hname (removes_of_removeFile htree)⟩

/-- Removing the bindings files below the output directories is a course without saves. -/
theorem course_removeRoots (workspace : Workspace) :
    Course edits reason workspace
      (((bindingsRoots workspace).foldlM removeBelow {}).execute workspace).2 := by
  by_cases hfiles : workspace.settings.files = []
  -- A step of files needs settings of files. Without any there is no output directory to search.
  · rw [bindingsRoots, hfiles, List.map_nil, List.mergeSort_nil, distinctPaths]
    exact .refl
  · have hkeeps : Keeps (coursing edits reason) workspace
        ((bindingsRoots workspace).foldlM removeBelow {}) fun _ => True :=
      keeps_foldlM (fun directory _ _ _ => keeps_removeBelow coursing_permitsRemoval directory) {}
        hfiles
    exact hkeeps.allows

theorem course_removeAllBindings (workspace : Workspace) :
    Course Records (Unsaved (removeAllBindings.execute workspace).1) workspace
      (removeAllBindings.execute workspace).2 := by
  have hcleared {reason : Prop} : Course Records reason workspace
      (((bindingsRoots workspace).foldlM removeBelow {}).execute workspace).2 :=
    course_removeRoots workspace
  obtain ⟨notices, hrun⟩ := execute_removeAllBindings workspace
  rw [hrun]
  generalize ((bindingsRoots workspace).foldlM removeBelow {}).execute workspace = roots at hcleared ⊢
  obtain ⟨failure | report, cleared⟩ := roots
  · exact hcleared
  · dsimp only
    split
    · exact Course.note hcleared _
    · exact (Course.save hcleared (records_forgetMissing cleared)).passOn _ notices

theorem course_after (run : BatchRun) :
    Course Records (Unsaved run.outcome) run.start run.after := by
  obtain ⟨notices, hafter⟩ := run.after_eq
  rw [hafter]
  exact (course_writeBindings run.start run.path).note notices

/-- The settings could not be saved in one of the runs of a batch. -/
def UnsavedIn (runs : List BatchRun) : Prop :=
  ∃ run ∈ runs, Unsaved run.outcome

theorem course_batchEnd (paths : List String) (workspace : Workspace) :
    Course Records (UnsavedIn (batchRuns paths workspace)) workspace (batchEnd paths workspace) := by
  induction paths generalizing workspace with
  | nil => exact .refl
  | cons path rest ih =>
    let run : BatchRun := ⟨path, workspace⟩
    have hrun := (course_after run).mono fun hunsaved =>
      (⟨run, List.mem_cons_self .., hunsaved⟩ : UnsavedIn (batchRuns (path :: rest) workspace))
    refine hrun.trans ((ih run.after).mono ?_)
    rintro ⟨other, hother, hunsaved⟩
    exact ⟨other, List.mem_cons_of_mem run hother, hunsaved⟩

end Actions

/-- In an operation that could not save the settings, a save has failed. -/
theorem saveFails_of_unsaved {operation : Operation} {workspace : Workspace}
    (hunsaved : Unsaved (operation.outcome workspace)) : operation.saveFails workspace = true := by
  obtain ⟨error, houtcome⟩ := hunsaved
  rw [Operation.saveFails, houtcome]
  rfl

theorem Unsaved.map {α β : Type} {outcome : Except Failure α} (hunsaved : Unsaved outcome)
    (value : α → β) : Unsaved (outcome.map value) := by
  obtain ⟨error, rfl⟩ := hunsaved
  exact ⟨error, rfl⟩

/-- A batch in which the settings could not be saved tells so. -/
theorem saveFails_of_unsavedIn {workspace : Workspace}
    (henabled : workspace.project.enabled = true)
    (hunsaved : UnsavedIn (projectRuns workspace)) :
    Operation.writeAllBindings.saveFails workspace = true := by
  obtain ⟨run, hrun, error, houtcome⟩ := hunsaved
  obtain ⟨notices, hbatch⟩ := execute_writeAllBindings workspace
  rw [if_pos henabled] at hbatch
  have hfailed : (run.path, Failure.settings error) ∈
      (projectRuns workspace).filterMap BatchRun.failure? := by
    refine List.mem_filterMap.2 ⟨run, hrun, ?_⟩
    rw [BatchRun.failure?, houtcome]
  rw [Operation.saveFails, Operation.outcome, hbatch]
  refine List.any_eq_true.2 ⟨.settings error, ?_, rfl⟩
  exact List.mem_map_of_mem hfailed

/-- Every operation is a course of steps, in which saves fail only if the outcome tells. -/
theorem Operation.course (operation : Operation) (workspace : Workspace) :
    Course (operation.Edits workspace.settings) (operation.saveFails workspace = true) workspace
      (operation.after workspace) := by
  have htold {α : Type} {action : WorkspaceM α} (yield : α → Yield)
      (hcourse : Course (operation.Edits workspace.settings) (Unsaved (action.execute workspace).1)
        workspace (action.execute workspace).2)
      (houtcome : operation.outcome workspace = (action.execute workspace).1.map yield) :
      Course (operation.Edits workspace.settings) (operation.saveFails workspace = true) workspace
        (action.execute workspace).2 :=
    hcourse.mono fun hunsaved => saveFails_of_unsaved (houtcome ▸ hunsaved.map yield)
  cases operation with
  | enable path => exact htold (fun setting => .setting (some setting)) (course_enable workspace path) rfl
  | disable path => exact htold .setting (course_disable workspace path) rfl
  | change path edit => exact htold (fun _ => .nothing) (Course.change .refl ⟨rfl, rfl⟩) rfl
  | openAsset path =>
    obtain ⟨notices, hrun⟩ := execute_openAsset workspace path
    rw [Operation.after, hrun]
    exact Course.note .refl notices
  | writeBindings path => exact htold .report (course_writeBindings workspace path) rfl
  | writeScript path => exact htold .report (course_writeScript workspace path) rfl
  | writeAllBindings =>
    obtain ⟨notices, hrun⟩ := execute_writeAllBindings workspace
    rw [Operation.after, hrun]
    split
    · rename_i henabled
      exact ((course_batchEnd _ workspace).mono (saveFails_of_unsavedIn henabled)).note notices
    · exact Course.note .refl notices
  | removeBindings path => exact htold .removed (course_removeBindings workspace path) rfl
  | removeAllBindings => exact htold .removal (course_removeAllBindings workspace) rfl

/-- An operation that keeps to what is recorded of bindings keeps it named like bindings. -/
theorem keepsNamed_edits {operation : Operation} (hkeeps : operation.KeepsRecords)
    (start : Settings) : KeepsNamed (operation.Edits start) := by
  intro settings settings' hedit hnamed
  cases operation with
  | enable path =>
    obtain ⟨rfl, rfl⟩ := hedit
    intro setting hmem
    rcases eq_or_mem_of_mem_putSetting hmem with rfl | hold
    · exact nofun
    · exact hnamed setting hold
  | disable path =>
    obtain ⟨rfl, rfl⟩ := hedit
    exact fun setting hmem => hnamed setting (List.mem_of_mem_eraseP hmem)
  | change path edit =>
    obtain ⟨rfl, rfl⟩ := hedit
    intro setting hmem
    rcases mem_of_mem_changeSetting hmem with hold | ⟨other, hother, rfl⟩
    · exact hnamed setting hold
    · exact fun last hlast => hnamed other hother last ((hkeeps other).symm.trans hlast)
  | _ => exact hedit.named hnamed

end UxmlBindings.Workspace
