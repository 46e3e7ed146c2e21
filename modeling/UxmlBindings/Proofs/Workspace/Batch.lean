import UxmlBindings.Proofs.Workspace.Cleaning
import UxmlBindings.Proofs.Workspace.Runs

/-!
# Batches

A batch generates the bindings of all files of a project, one run after the other. What a run has
written can be undone before the batch is over: a clean-up, of the same run or of a later one,
removes the file if the recorded path of earlier bindings leads to it by other words, and saving
replaces it if the settings are kept in the same file. Nothing else undoes it as long as the runs
write to different places.
-/

namespace UxmlBindings.Workspace

open Binding Files FileTree Settings

/-- A run for the bindings of one file in a batch, with the workspace in which it starts. -/
structure BatchRun where
  path : String
  start : Workspace

namespace BatchRun

/-- What comes of a run. -/
def outcome (run : BatchRun) : Except Failure Report :=
  ((writeBindings run.path).execute run.start).1

/-- The workspace after a run, in which a failure has been noted. -/
def after (run : BatchRun) : Workspace :=
  let (outcome, later) := (writeBindings run.path).execute run.start
  match outcome with
  | .ok _ => later
  | .error failure => later.withNotices (later.notices ++ [.assetFailed run.path failure])

/-- The report of a run that succeeds. -/
def report? (run : BatchRun) : Option Report :=
  match run.outcome with
  | .ok report => some report
  | .error _ => none

/-- The failure of a run that fails, with the path. -/
def failure? (run : BatchRun) : Option (String × Failure) :=
  match run.outcome with
  | .ok _ => none
  | .error failure => some (run.path, failure)

/-- The place to which a run writes, if it has anything to write. -/
def place? (run : BatchRun) : Option Location :=
  match run.start.bindings? run.path with
  | .ok (asset, _) => some (placeOf run.start.tree.home (run.start.locate asset.bindingsPath))
  | .error _ => none

/-- Two runs do not write to one place. -/
def Apart (first second : BatchRun) : Prop :=
  ∀ place, first.place? = some place → second.place? ≠ some place

instance (first second : BatchRun) : Decidable (first.Apart second) :=
  decidable_of_iff (first.place? = none ∨ first.place? ≠ second.place?) <| by
    unfold Apart
    cases first.place? with
    | none => simp
    | some place => simp [eq_comm]

/-- A run writes the bindings of an asset. -/
structure Places (run : BatchRun) (asset : Asset) (text : GeneratedText) (written : FileTree) :
    Prop where
  ready : run.start.bindings? run.path = .ok (asset, text)
  write : run.start.tree.writeWithParents (run.start.locate asset.bindingsPath) (.text text.code) =
    (.ok (), written)

/-- A run removes what stands at a location while it cleans up after an earlier one. -/
def Clears (run : BatchRun) (location : Location) : Prop :=
  ∃ asset text written, run.Places asset text written ∧
    Cleans (run.start.withTree written) asset.setting.lastBindings asset.bindingsPath location

end BatchRun

/-- The runs of a batch for some files, each from where the one before has ended. -/
def batchRuns : List String → Workspace → List BatchRun
  | [], _ => []
  | path :: rest, workspace =>
    let run : BatchRun := ⟨path, workspace⟩
    run :: batchRuns rest run.after

/-- The workspace after a batch for some files. -/
def batchEnd : List String → Workspace → Workspace
  | [], workspace => workspace
  | path :: rest, workspace => batchEnd rest (BatchRun.after ⟨path, workspace⟩)

/-- The runs of the batch for all files of a project. -/
def projectRuns (workspace : Workspace) : List BatchRun :=
  batchRuns (workspace.settings.files.map (·.path)) workspace

/-- A batch consists of its runs. -/
theorem execute_writeEach (paths : List String) (workspace : Workspace) :
    (writeEach paths).execute workspace =
      (.ok
        { succeeded := (batchRuns paths workspace).filterMap BatchRun.report?
          failed := (batchRuns paths workspace).filterMap BatchRun.failure? },
        batchEnd paths workspace) := by
  induction paths generalizing workspace with
  | nil => rfl
  | cons path rest ih =>
    let run : BatchRun := ⟨path, workspace⟩
    rw [writeEach, execute_bind, execute_attempt, batchRuns, batchEnd, List.filterMap_cons,
      List.filterMap_cons]
    rcases hrun : (writeBindings path).execute workspace with ⟨outcome, later⟩
    have houtcome : run.outcome = outcome := congrArg Prod.fst hrun
    cases outcome with
    | ok report =>
      have hafter : run.after = later := by simp [BatchRun.after, run, hrun]
      have hreport : run.report? = some report := by rw [BatchRun.report?, houtcome]
      have hfailure : run.failure? = none := by rw [BatchRun.failure?, houtcome]
      dsimp only
      rw [hreport, hfailure, hafter, execute_bind_ok (ih later)]
      rfl
    | error failure =>
      let noted := later.withNotices (later.notices ++ [.assetFailed path failure])
      have hafter : run.after = noted := by simp [BatchRun.after, run, hrun, noted]
      have hreport : run.report? = none := by rw [BatchRun.report?, houtcome]
      have hfailure : run.failure? = some (path, failure) := by rw [BatchRun.failure?, houtcome]
      dsimp only
      rw [hreport, hfailure, hafter, execute_bind_ok (execute_notify later _),
        execute_bind_ok (ih noted)]
      rfl

/-- A batch for all files of a project that takes part in generation consists of its runs. -/
theorem execute_writeAllBindings (workspace : Workspace) :
    ∃ notices, writeAllBindings.execute workspace =
      if workspace.project.enabled then
        (.ok
          { succeeded := (projectRuns workspace).filterMap BatchRun.report?
            failed := (projectRuns workspace).filterMap BatchRun.failure? },
          (batchEnd (workspace.settings.files.map (·.path)) workspace).withNotices notices)
      else (.error .disabled, workspace.withNotices notices) := by
  by_cases henabled : workspace.project.enabled = true
  · have hready : requireEnabled.execute workspace = (.ok (), workspace) := by
      rw [requireEnabled, execute_get_bind, if_pos henabled]
      rfl
    simp only [if_pos henabled]
    rw [writeAllBindings, execute_bind_ok hready, execute_get_bind,
      execute_bind_ok (execute_writeEach _ _)]
    exact ⟨_, rfl⟩
  · obtain ⟨notices, hready⟩ := execute_requireEnabled workspace
    rw [if_neg henabled] at hready
    simp only [if_neg henabled]
    exact ⟨notices, execute_bind_error hready _⟩

namespace BatchRun

/-- A run has a report if it succeeds. -/
theorem report?_eq_some_iff {run : BatchRun} {report : Report} :
    run.report? = some report ↔ run.outcome = .ok report := by
  unfold report?
  cases run.outcome <;> simp

variable {run : BatchRun} {asset : Asset} {text : GeneratedText} {written : FileTree}
  {location : Location}

/-- The workspace after a run is that of the run, but for notices. -/
theorem after_eq (run : BatchRun) :
    ∃ notices, run.after = ((writeBindings run.path).execute run.start).2.withNotices notices := by
  unfold after
  rcases (writeBindings run.path).execute run.start with ⟨failure | report, later⟩
  · exact ⟨_, rfl⟩
  · exact ⟨later.notices, rfl⟩

/-- Once bindings are written, the rest of a run cleans up and saves the settings. -/
theorem saves_of_places (hplaces : run.Places asset text written) :
    Saves (∃ failure, run.outcome = .error failure)
        (run.start.withTree (withoutStale (run.start.withTree written) asset.setting.lastBindings
          asset.bindingsPath)) run.after ∧
      ∀ report, run.outcome = .ok report → report = bindingsReport run.start asset text := by
  obtain ⟨quiet, notices, hrun⟩ := execute_writeBindings_of_written hplaces.ready hplaces.write
  obtain ⟨last, hafter⟩ := run.after_eq
  obtain ⟨⟨hgrows, hroot, hpath⟩, hothers, hown⟩ := saves_change
    ((run.start.withTree (withoutStale (run.start.withTree written) asset.setting.lastBindings
      asset.bindingsPath)).withNotices quiet) asset.source asset.recordBindings
  unfold outcome
  rw [hafter, hrun]
  refine ⟨⟨⟨hgrows, hroot, hpath⟩, hothers, fun location hplace => ?_⟩, fun report hreport => ?_⟩
  · refine (hown location hplace).imp_left fun ⟨⟨failure, hfailure⟩, hsame⟩ => ⟨⟨failure, ?_⟩, hsame⟩
    rw [hfailure]
    rfl
  · dsimp only at hreport
    generalize ((change asset.source asset.recordBindings).execute _).1 = changed at hreport
    cases changed with
    | error failure => cases hreport
    | ok => exact (Except.ok.inj hreport).symm

/-- A run that writes no bindings fails and changes no file. -/
theorem of_not_places (hplaces : ¬ ∃ asset text written, run.Places asset text written) :
    (∃ failure, run.outcome = .error failure) ∧ KeepsFiles run.start.tree run.after.tree ∧
      run.after.root = run.start.root ∧ run.after.settingsPath? = run.start.settingsPath? := by
  obtain ⟨last, hafter⟩ := run.after_eq
  unfold outcome
  cases hready : run.start.bindings? run.path with
  | error failure =>
    obtain ⟨notices, hrun⟩ := execute_writeBindings_of_error hready
    rw [hafter, hrun]
    exact ⟨⟨failure, rfl⟩, .refl _, rfl, rfl⟩
  | ok ready =>
    obtain ⟨asset, text⟩ := ready
    have hspec := writeWithParents_spec run.start.tree (run.start.locate asset.bindingsPath)
      (.text text.code)
    rcases hwrite : run.start.tree.writeWithParents (run.start.locate asset.bindingsPath)
      (.text text.code) with ⟨⟨place, fault⟩ | ⟨⟩, tree⟩
    · obtain ⟨notices, hrun⟩ := execute_writeBindings_of_unwritten hready hwrite
      rw [hwrite] at hspec
      rw [hafter, hrun]
      exact ⟨⟨_, rfl⟩, hspec, rfl, rfl⟩
    · exact absurd ⟨asset, text, tree, hready, hwrite⟩ hplaces

/-- A run that succeeds writes bindings. -/
theorem exists_places {report : Report} (hreport : run.outcome = .ok report) :
    ∃ asset text written, run.Places asset text written := by
  by_contra hnone
  obtain ⟨⟨failure, hfailure⟩, -⟩ := of_not_places hnone
  rw [hreport] at hfailure
  cases hfailure

/-- What a run writes stands at its place. -/
theorem Places.writes (hplaces : run.Places asset text written) :
    Writes (run.start.locate asset.bindingsPath) (.text text.code) run.start.tree written := by
  have hspec := writeWithParents_spec run.start.tree (run.start.locate asset.bindingsPath)
    (.text text.code)
  rw [hplaces.write] at hspec
  exact hspec

theorem Places.place? (hplaces : run.Places asset text written) :
    run.place? = some (placeOf run.start.tree.home (run.start.locate asset.bindingsPath)) := by
  rw [BatchRun.place?, hplaces.ready]

/-- Writing and cleaning up go on with the same home, directory and settings file. -/
theorem Places.continues (hplaces : run.Places asset text written) :
    Continues run.start (run.start.withTree (withoutStale (run.start.withTree written)
      asset.setting.lastBindings asset.bindingsPath)) :=
  ⟨hplaces.writes.toGrows.trans (grows_withoutStale (run.start.withTree written) _ _), rfl, rfl⟩

/-- A run goes on with the same home, directory and settings file. -/
theorem continues_after (run : BatchRun) : Continues run.start run.after := by
  by_cases hplaces : ∃ asset text written, run.Places asset text written
  · obtain ⟨asset, text, written, hplaces⟩ := hplaces
    exact hplaces.continues.trans (saves_of_places hplaces).1.toContinues
  · obtain ⟨-, hkeeps, hroot, hpath⟩ := of_not_places hplaces
    exact ⟨hkeeps.toGrows, hroot, hpath⟩

/-- Saving leaves what clean-up has left, apart from the place of the settings. -/
theorem Places.content?_after (hplaces : run.Places asset text written)
    (hsettings : run.start.settingsPlace? ≠ some location) :
    run.after.tree.content? location =
      (withoutStale (run.start.withTree written) asset.setting.lastBindings
        asset.bindingsPath).content? location := by
  apply (saves_of_places hplaces).1.others location
  rw [hplaces.continues.settingsPlace]
  exact hsettings

/-- What stands at the place of the settings is what clean-up has left or the saved settings. -/
theorem Places.own_after (hplaces : run.Places asset text written)
    (hsettings : run.start.settingsPlace? = some location) :
    ((∃ failure, run.outcome = .error failure) ∧ run.after.tree.content? location =
        (withoutStale (run.start.withTree written) asset.setting.lastBindings
          asset.bindingsPath).content? location) ∨
      ∃ settings : Settings, run.after.tree.content? location = some (.text settings.toText) := by
  apply (saves_of_places hplaces).1.own location
  rw [hplaces.continues.settingsPlace]
  exact hsettings

/-- What a run removes and does not save anew is gone after it. -/
theorem content?_after_of_clears (hclears : run.Clears location)
    (hsettings : run.start.settingsPlace? ≠ some location) :
    run.after.tree.content? location = none := by
  obtain ⟨asset, text, written, hplaces, hcleans⟩ := hclears
  rw [hplaces.content?_after hsettings]
  exact content?_withoutStale_of_cleans hcleans

/-- What a run neither writes, removes nor saves is as before. -/
theorem content?_after_of_not_clears (hclears : ¬ run.Clears location)
    (hplace : run.place? ≠ some location) (hname : namedMeta location = false)
    (hsettings : run.start.settingsPlace? ≠ some location) :
    run.after.tree.content? location = run.start.tree.content? location := by
  by_cases hplaces : ∃ asset text written, run.Places asset text written
  · obtain ⟨asset, text, written, hplaces⟩ := hplaces
    have hcleans : ¬ Cleans (run.start.withTree written) asset.setting.lastBindings
        asset.bindingsPath location :=
      fun h => hclears ⟨asset, text, written, hplaces, h⟩
    have hother : placeOf run.start.tree.home (run.start.locate asset.bindingsPath) ≠ location :=
      fun h => hplace (hplaces.place?.trans (congrArg some h))
    calc run.after.tree.content? location
        = (withoutStale (run.start.withTree written) asset.setting.lastBindings
            asset.bindingsPath).content? location :=
          hplaces.content?_after hsettings
      _ = written.content? location := content?_withoutStale_of_not hcleans hname
      _ = run.start.tree.content? location := by rw [hplaces.writes.content, if_neg hother]
  · exact (of_not_places hplaces).2.1.content location

/-- What a run writes and does not remove is there after it, unless the settings are saved there. -/
theorem content?_after_of_places (hplaces : run.Places asset text written)
    (hplace : run.place? = some location) (hclears : ¬ run.Clears location)
    (hname : namedMeta location = false) (hsettings : run.start.settingsPlace? ≠ some location) :
    run.after.tree.content? location = some (.text text.code) := by
  have hcleans : ¬ Cleans (run.start.withTree written) asset.setting.lastBindings
      asset.bindingsPath location :=
    fun h => hclears ⟨asset, text, written, hplaces, h⟩
  have hown : placeOf run.start.tree.home (run.start.locate asset.bindingsPath) = location :=
    Option.some.inj (hplaces.place?.symm.trans hplace)
  calc run.after.tree.content? location
      = (withoutStale (run.start.withTree written) asset.setting.lastBindings
          asset.bindingsPath).content? location :=
        hplaces.content?_after hsettings
    _ = written.content? location := content?_withoutStale_of_not hcleans hname
    _ = some (.text text.code) := by rw [hplaces.writes.content, if_pos hown]

/-- Nothing but settings, if anything, stands at a location. -/
def HoldsSettings (tree : FileTree) (location : Location) : Prop :=
  tree.content? location = none ∨
    ∃ settings : Settings, tree.content? location = some (.text settings.toText)

/-- After a run that succeeds, the settings are saved. -/
theorem holdsSettings_after {report : Report} (hreport : run.outcome = .ok report)
    (hsettings : run.start.settingsPlace? = some location) :
    HoldsSettings run.after.tree location := by
  obtain ⟨asset, text, written, hplaces⟩ := exists_places hreport
  rcases hplaces.own_after hsettings with ⟨⟨failure, hfailure⟩, -⟩ | hsaved
  · rw [hreport] at hfailure
    cases hfailure
  · exact .inr hsaved

/-- The place of the settings holds nothing else after a run that writes elsewhere. -/
theorem holdsSettings_after_of_holds (hholds : HoldsSettings run.start.tree location)
    (hplace : run.place? ≠ some location) (hname : namedMeta location = false)
    (hsettings : run.start.settingsPlace? = some location) :
    HoldsSettings run.after.tree location := by
  by_cases hplaces : ∃ asset text written, run.Places asset text written
  · obtain ⟨asset, text, written, hplaces⟩ := hplaces
    rcases hplaces.own_after hsettings with ⟨-, hsame⟩ | hsaved
    · have hother : placeOf run.start.tree.home (run.start.locate asset.bindingsPath) ≠ location :=
        fun h => hplace (hplaces.place?.trans (congrArg some h))
      have hwritten : written.content? location = run.start.tree.content? location := by
        rw [hplaces.writes.content, if_neg hother]
      unfold HoldsSettings
      rw [hsame]
      by_cases hcleans : Cleans (run.start.withTree written) asset.setting.lastBindings
          asset.bindingsPath location
      · exact .inl (content?_withoutStale_of_cleans hcleans)
      · have hcontent := content?_withoutStale_of_not hcleans hname
        exact (hcontent.trans hwritten).symm ▸ hholds
    · exact .inr hsaved
  · have hcontent := (of_not_places hplaces).2.1.content location
    unfold HoldsSettings
    rw [hcontent]
    exact hholds

end BatchRun

end UxmlBindings.Workspace
