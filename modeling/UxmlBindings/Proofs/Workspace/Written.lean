import UxmlBindings.Proofs.Workspace.Intact
import UxmlBindings.Proofs.Workspace.Steps

/-!
# What a run for bindings leaves

A run for bindings that succeeds has written the bindings and then cleaned up after the run before
it. What it has written is there in the end unless the clean-up has removed it, because the path of
the run before leads to the same file by other words, or the settings were saved in the same file. It
is recorded in the setting of the asset unless the path of the setting is looked up under another key
than its own.
-/

namespace UxmlBindings.Workspace

open Binding Files FileTree Settings

/-- The setting for a path records where bindings were last written. -/
def Recorded (workspace : Workspace) (path : String) (bindings : Pathname) : Prop :=
  ∃ setting, workspace.settings.find? (keyOf path) = some setting ∧
    setting.lastBindings = some bindings

section Runs

variable {workspace later : Workspace} {path : String} {report : Report} {asset : Asset}
  {text : GeneratedText} {written : FileTree}

/-- A run for bindings that succeeds has recorded the path in the settings. -/
theorem settings_of_writeBindings (hplaces : BatchRun.Places ⟨path, workspace⟩ asset text written)
    (hrun : (writeBindings path).execute workspace = (.ok report, later)) :
    later.settings = workspace.settings.change (keyOf asset.source) asset.recordBindings := by
  obtain ⟨quiet, notices, hexecute⟩ := execute_writeBindings_of_written hplaces.ready hplaces.write
  rw [hrun, Prod.mk.injEq] at hexecute
  obtain ⟨houtcome, rfl⟩ := hexecute
  let cleaned := (workspace.withTree (withoutStale (workspace.withTree written)
    asset.setting.lastBindings asset.bindingsPath)).withNotices quiet
  have hchange := execute_change cleaned asset.source asset.recordBindings
  cases hfind : workspace.settings.find? (keyOf asset.source) with
  | none =>
    have hcleaned : cleaned.settings.find? (keyOf asset.source) = none := hfind
    rw [hcleaned] at hchange
    dsimp only at houtcome
    rw [hchange] at houtcome
    cases houtcome
  | some setting =>
    have hcleaned : cleaned.settings.find? (keyOf asset.source) = some setting := hfind
    rw [hcleaned] at hchange
    exact (congrArg (fun changed => changed.2.settings) hchange).trans (settings_of_save rfl)

/-- The path is recorded in the setting of the asset if the path of the setting is its own key, and
otherwise only if it was recorded before. -/
theorem recorded_of_writeBindings_iff
    (hplaces : BatchRun.Places ⟨path, workspace⟩ asset text written)
    (hrun : (writeBindings path).execute workspace = (.ok report, later)) :
    Recorded later path asset.bindingsPath ↔
      keyOf (keyOf path) = keyOf path ∨ asset.setting.lastBindings = some asset.bindingsPath := by
  have hasset := asset?_of_bindings? hplaces.ready
  have hfind : workspace.settings.find? (keyOf path) = some asset.setting := (asset?_eq_ok hasset).1
  have hsource : asset.source = keyOf path := path_of_find? hfind
  have hedit (setting : AssetOptions) (hpath : setting.path = keyOf (keyOf path)) :
      (asset.recordBindings setting).path = keyOf (keyOf path) :=
    hpath
  -- The run records under the key of the path of the setting, and that path is a key already.
  unfold Recorded
  rw [settings_of_writeBindings hplaces hrun, hsource, find?_change _ _ hedit, hfind]
  by_cases hkey : keyOf (keyOf path) = keyOf path
  · rw [if_pos hkey]
    refine iff_of_true ⟨_, rfl, rfl⟩ (.inl hkey)
  · rw [if_neg hkey]
    constructor
    · rintro ⟨setting, hsetting, hlast⟩
      obtain rfl := Option.some.inj hsetting
      exact .inr hlast
    · rintro (hown | hlast)
      · exact absurd hown hkey
      · exact ⟨asset.setting, rfl, hlast⟩

/-- After a run for bindings that succeeds, the bindings that were generated for the asset are in the
file that is reported, and its path is recorded in the setting of the asset, exactly if the settings
are not kept in that file, the clean-up after the run before does not remove it, and the path of the
setting is looked up under itself or was recorded before. -/
theorem writeBindings_leaves_iff
    (hrun : (writeBindings path).execute workspace = (.ok report, later)) :
    ∃ asset text place, workspace.bindings? path = .ok (asset, text) ∧
      report = bindingsReport workspace asset text ∧
      place = placeOf workspace.tree.home report.output ∧
      ((later.tree.readText report.output = .ok text.code ∧
          Recorded later path asset.bindingsPath) ↔
        workspace.settingsPlace? ≠ some place ∧ ¬ BatchRun.Clears ⟨path, workspace⟩ place ∧
          (keyOf (keyOf path) = keyOf path ∨
            asset.setting.lastBindings = some asset.bindingsPath)) := by
  let run : BatchRun := ⟨path, workspace⟩
  have houtcome : run.outcome = .ok report := congrArg Prod.fst hrun
  have hafter : run.after = later := by
    rw [BatchRun.after]
    dsimp only [run]
    rw [hrun]
  obtain ⟨asset, text, written, hplaces⟩ := BatchRun.exists_places houtcome
  have hasset := asset?_of_bindings? hplaces.ready
  have hreport := (BatchRun.saves_of_places hplaces).2 report houtcome
  let place := placeOf workspace.tree.home (workspace.locate asset.bindingsPath)
  have hname : namedMeta place = false :=
    namedMeta_of_namedBindings (namedBindings_place hasset _)
  have hreached : later.tree.locationOf report.output = .ok place := by
    rw [hreport, ← hafter]
    exact locationOf_batchEnd hplaces []
  have hcontent : later.tree.content? place = some (.text text.code) ↔
      workspace.settingsPlace? ≠ some place ∧ ¬ run.Clears place := by
    have hothers : ∀ other ∈ batchRuns [] run.after, other.place? ≠ some place := List.forall_mem_nil _
    have hend := content?_batchEnd_iff houtcome hplaces hplaces.place? hname hothers
    rw [batchEnd, batchRuns, hafter, List.forall_mem_singleton] at hend
    exact hend
  refine ⟨asset, text, place, hplaces.ready, hreport, by rw [hreport]; rfl, ?_⟩
  rw [readText_eq_ok_iff hreached, hcontent, recorded_of_writeBindings_iff hplaces hrun, and_assoc]

end Runs

/-- A history in which bindings are written and the output directory is then named in a roundabout
way. -/
def detouredHistory : List Operation :=
  [.enable "Menu.uxml",
   .writeBindings "Menu.uxml",
   .change "Menu.uxml" fun setting => { setting with outputDirectory := "Markbind/../Markbind" }]

/-- The project after this history. -/
def detouredProject : Workspace :=
  afterAll detouredHistory
    { tree := { entries := .ofList [(["Menu.uxml"], Entry.file (.text "<UXML/>"))] }
      store := .inMemory {}
      root := ⟨""⟩ }

/-- What the next run for bindings reports. -/
def detouredReport : Report where
  source := "Menu.uxml"
  className := "Menu"
  output := ⟨"Assets/Markbind/../Markbind/Menu.g.cs"⟩
  outcome := .written
  warnings := []

/-- The next run succeeds and removes the file that it has written. -/
theorem execute_detouredProject :
    ∃ later, (writeBindings "Menu.uxml").execute detouredProject = (.ok detouredReport, later) ∧
      later.tree.readText detouredReport.output = .error .notFound := by
  have hrun : ((writeBindings "Menu.uxml").execute detouredProject).1 = .ok detouredReport ∧
      ((writeBindings "Menu.uxml").execute detouredProject).2.tree.readText detouredReport.output =
        .error .notFound := by
    decide +kernel
  exact exists_run hrun.1 hrun.2

theorem writeBindings_loses_detoured :
    ∃ later, (writeBindings "Menu.uxml").execute detouredProject = (.ok detouredReport, later) ∧
      ∀ code, later.tree.readText detouredReport.output ≠ .ok code := by
  obtain ⟨later, hrun, hgone⟩ := execute_detouredProject
  refine ⟨later, hrun, fun code hcode => ?_⟩
  rw [hgone] at hcode
  cases hcode

theorem writeBindings_leaves_iff_detoured :
    ∃ later, (writeBindings "Menu.uxml").execute detouredProject = (.ok detouredReport, later) ∧
      ∃ asset text place, detouredProject.bindings? "Menu.uxml" = .ok (asset, text) ∧
        detouredReport = bindingsReport detouredProject asset text ∧
        place = placeOf detouredProject.tree.home detouredReport.output ∧
        ((later.tree.readText detouredReport.output = .ok text.code ∧
            Recorded later "Menu.uxml" asset.bindingsPath) ↔
          detouredProject.settingsPlace? ≠ some place ∧
            ¬ BatchRun.Clears ⟨"Menu.uxml", detouredProject⟩ place ∧
            (keyOf (keyOf "Menu.uxml") = keyOf "Menu.uxml" ∨
              asset.setting.lastBindings = some asset.bindingsPath)) := by
  obtain ⟨later, hrun, -⟩ := execute_detouredProject
  exact ⟨later, hrun, writeBindings_leaves_iff hrun⟩

end UxmlBindings.Workspace
