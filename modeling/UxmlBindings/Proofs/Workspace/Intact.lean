import UxmlBindings.Proofs.Binding.FileSteps
import UxmlBindings.Proofs.Binding.Sifting
import UxmlBindings.Proofs.Workspace.Batch

/-!
# Files after a batch

Where the runs of a batch write to different places, the file of a run that succeeds has its
bindings at the end of the batch unless a clean-up has removed it, that of the run itself or of a
later one, or the settings are kept in the same file.
-/

namespace UxmlBindings.Workspace

open Binding Code Files FileTree Settings

section Texts

/-- The text of settings begins with a brace. -/
theorem head?_toText (settings : Settings) : settings.toText.toList.head? = some '\x7b' := by
  rw [Settings.toText, String.toList_append, Json.Value.render, String.toList_ofList]
  rfl

/-- A text of lines begins as its first line does. -/
theorem head?_textOfLines {line : String} {c : Char} (hline : line.toList.head? = some c)
    (rest : List String) : (textOfLines (line :: rest)).toList.head? = some c := by
  obtain ⟨tail, htail⟩ := List.head?_eq_some_iff.1 hline
  rw [textOfLines, List.map_cons, String.join_cons, String.toList_append, String.toList_append, htail]
  rfl

/-- The text of a bindings file begins with a comment. -/
theorem head?_render_bindingsFile (shape : Shape) (asset : AssetName) (kept : List BoundElement) :
    (bindingsFile shape asset kept).render.toList.head? = some '/' := by
  have hrule : (Step.text (.line ruleLine) 0).toList.head? = some '/' := by decide +kernel
  have hheader : headerSteps fileHeader =
      .line ruleLine :: (headerLines.tail.map Step.line ++ [.blank]) :=
    headerSteps_fileHeader
  rw [GeneratedFile.render, textOfSteps, layout, GeneratedFile.steps, bindingsFile]
  dsimp only
  rw [hheader, List.cons_append, List.cons_append, layoutFrom]
  exact head?_textOfLines hrule _

/-- The text that is generated for an asset is not that of settings. -/
theorem code_ne_toText {workspace : Workspace} {asset : Asset} {text : GeneratedText}
    (htext : workspace.bindingsText asset = .ok text) (settings : Settings) :
    text.code ≠ settings.toText := by
  obtain ⟨⟨file, warnings⟩, htree, hrender⟩ := bind_eq_ok_iff.1 htext
  obtain ⟨-, kept, clashes, -, rfl, -⟩ := bindingsTree_eq_ok htree
  obtain rfl := Except.ok.inj hrender
  intro hcode
  dsimp only at hcode
  have hhead := head?_render_bindingsFile asset.setting.shape asset.assetName kept
  rw [hcode, head?_toText] at hhead
  exact absurd (Option.some.inj hhead) (by decide)

end Texts

section Ends

variable {workspace : Workspace} {location : Location}

/-- A batch goes on with the same home, directory and settings file. -/
theorem continues_batchEnd (paths : List String) (workspace : Workspace) :
    Continues workspace (batchEnd paths workspace) := by
  induction paths generalizing workspace with
  | nil => exact .refl workspace
  | cons path rest ih => exact (BatchRun.continues_after ⟨path, workspace⟩).trans (ih _)

/-- A batch goes on after each of its runs with the runs that follow. -/
theorem batchRuns_split {paths : List String} {before after : List BatchRun} {run : BatchRun}
    (hsplit : batchRuns paths workspace = before ++ run :: after) :
    Continues workspace run.start ∧ ∃ rest, after = batchRuns rest run.after ∧
      batchEnd paths workspace = batchEnd rest run.after := by
  induction before generalizing paths workspace with
  | nil =>
    cases paths with
    | nil => cases hsplit
    | cons path rest =>
      obtain ⟨rfl, rfl⟩ := List.cons.inj hsplit
      exact ⟨.refl workspace, rest, rfl, rfl⟩
  | cons first before ih =>
    cases paths with
    | nil => cases hsplit
    | cons path rest =>
      obtain ⟨rfl, hrest⟩ := List.cons.inj hsplit
      obtain ⟨hcontinues, htail⟩ := ih hrest
      exact ⟨(BatchRun.continues_after ⟨path, workspace⟩).trans hcontinues, htail⟩

/-- What no run writes, removes or saves is there at the end as at the start. -/
theorem content?_batchEnd_of_not_clears {paths : List String}
    (hclears : ∀ run ∈ batchRuns paths workspace, ¬ run.Clears location)
    (hplaces : ∀ run ∈ batchRuns paths workspace, run.place? ≠ some location)
    (hname : namedMeta location = false) (hsettings : workspace.settingsPlace? ≠ some location) :
    (batchEnd paths workspace).tree.content? location = workspace.tree.content? location := by
  induction paths generalizing workspace with
  | nil => rfl
  | cons path rest ih =>
    let run : BatchRun := ⟨path, workspace⟩
    have hrest : ∀ other ∈ batchRuns rest run.after, other ∈ batchRuns (path :: rest) workspace :=
      fun other hother => List.mem_cons_of_mem run hother
    have hafter := BatchRun.content?_after_of_not_clears (hclears run (List.mem_cons_self ..))
      (hplaces run (List.mem_cons_self ..)) hname hsettings
    rw [batchEnd, ← hafter]
    refine ih (fun other hother => hclears other (hrest other hother))
      (fun other hother => hplaces other (hrest other hother)) ?_
    rw [(BatchRun.continues_after run).settingsPlace]
    exact hsettings

/-- What a run removes is gone at the end if no run writes or saves it. -/
theorem content?_batchEnd_of_clears {paths : List String}
    (hclears : workspace.tree.content? location = none ∨
      ∃ run ∈ batchRuns paths workspace, run.Clears location)
    (hplaces : ∀ run ∈ batchRuns paths workspace, run.place? ≠ some location)
    (hname : namedMeta location = false) (hsettings : workspace.settingsPlace? ≠ some location) :
    (batchEnd paths workspace).tree.content? location = none := by
  induction paths generalizing workspace with
  | nil =>
    rcases hclears with hnone | ⟨run, hmem, -⟩
    · exact hnone
    · cases hmem
  | cons path rest ih =>
    let run : BatchRun := ⟨path, workspace⟩
    have hsettings' : run.after.settingsPlace? ≠ some location := by
      rw [(BatchRun.continues_after run).settingsPlace]
      exact hsettings
    refine ih ?_ (fun other hother => hplaces other (List.mem_cons_of_mem run hother)) hsettings'
    by_cases hrun : run.Clears location
    · exact .inl (BatchRun.content?_after_of_clears hrun hsettings)
    rcases hclears with hnone | ⟨other, hmem, hother⟩
    · left
      have hafter := BatchRun.content?_after_of_not_clears hrun
        (hplaces run (List.mem_cons_self ..)) hname hsettings
      exact hafter.trans hnone
    · rcases List.mem_cons.1 hmem with rfl | hrest
      · exact absurd hother hrun
      · exact .inr ⟨other, hrest, hother⟩

/-- The place of the settings holds nothing else at the end if no run writes there. -/
theorem holdsSettings_batchEnd {paths : List String}
    (hholds : BatchRun.HoldsSettings workspace.tree location)
    (hplaces : ∀ run ∈ batchRuns paths workspace, run.place? ≠ some location)
    (hname : namedMeta location = false) (hsettings : workspace.settingsPlace? = some location) :
    BatchRun.HoldsSettings (batchEnd paths workspace).tree location := by
  induction paths generalizing workspace with
  | nil => exact hholds
  | cons path rest ih =>
    let run : BatchRun := ⟨path, workspace⟩
    have hafter := BatchRun.holdsSettings_after_of_holds hholds
      (hplaces run (List.mem_cons_self ..)) hname hsettings
    apply ih hafter fun other hother => hplaces other (List.mem_cons_of_mem run hother)
    rw [(BatchRun.continues_after run).settingsPlace]
    exact hsettings

/-- At the end of the batch, the path of the file of a run still leads to where it was written. -/
theorem locationOf_batchEnd {run : BatchRun} {asset : Asset} {text : GeneratedText}
    {written : FileTree} (hplaces : run.Places asset text written) (paths : List String) :
    (batchEnd paths run.after).tree.locationOf (run.start.locate asset.bindingsPath) =
      .ok (placeOf run.start.tree.home (run.start.locate asset.bindingsPath)) := by
  have hafter : Grows written run.after.tree :=
    (grows_withoutStale (run.start.withTree written) _ _).trans
      (BatchRun.saves_of_places hplaces).1.grows
  exact (hafter.trans (continues_batchEnd paths run.after).grows).locationOf hplaces.writes.reached

/-- The file of a run does not have its bindings at the end of the batch if the settings are kept
there. -/
theorem content?_batchEnd_of_settingsPlace {paths : List String} {run : BatchRun} {report : Report}
    {asset : Asset} {text : GeneratedText} (hreport : run.outcome = .ok report)
    (htext : run.start.bindingsText asset = .ok text)
    (hothers : ∀ other ∈ batchRuns paths run.after, other.place? ≠ some location)
    (hname : namedMeta location = false) (hsettings : run.start.settingsPlace? = some location) :
    (batchEnd paths run.after).tree.content? location ≠ some (.text text.code) := by
  intro hcontent
  have hsaved := BatchRun.holdsSettings_after hreport hsettings
  rw [← (BatchRun.continues_after run).settingsPlace] at hsettings
  rcases holdsSettings_batchEnd hsaved hothers hname hsettings with hnone | ⟨settings, hkept⟩
  · rw [hcontent] at hnone
    cases hnone
  · rw [hcontent] at hkept
    exact code_ne_toText htext settings (Content.text.inj (Option.some.inj hkept))

/-- The file of a run is gone at the end of the batch if the run itself or a later one removes it.
-/
theorem content?_batchEnd_of_mem_clears {paths : List String} {run other : BatchRun}
    (hmem : other ∈ run :: batchRuns paths run.after) (hclears : other.Clears location)
    (hothers : ∀ other ∈ batchRuns paths run.after, other.place? ≠ some location)
    (hname : namedMeta location = false) (hsettings : run.start.settingsPlace? ≠ some location) :
    (batchEnd paths run.after).tree.content? location = none := by
  have hgone : run.after.tree.content? location = none ∨
      ∃ other ∈ batchRuns paths run.after, other.Clears location := by
    rcases List.mem_cons.1 hmem with rfl | hrest
    · exact .inl (BatchRun.content?_after_of_clears hclears hsettings)
    · exact .inr ⟨other, hrest, hclears⟩
  apply content?_batchEnd_of_clears hgone hothers hname
  rw [(BatchRun.continues_after run).settingsPlace]
  exact hsettings

/-- The file of a run that succeeds has its bindings at the end of the batch, unless the settings
are kept there or the run itself or a later one removes it. -/
theorem content?_batchEnd_iff {paths : List String} {run : BatchRun} {report : Report}
    {asset : Asset} {text : GeneratedText} {written : FileTree}
    (hreport : run.outcome = .ok report) (hplaces : run.Places asset text written)
    (hplace : run.place? = some location) (hname : namedMeta location = false)
    (hothers : ∀ other ∈ batchRuns paths run.after, other.place? ≠ some location) :
    (batchEnd paths run.after).tree.content? location = some (.text text.code) ↔
      run.start.settingsPlace? ≠ some location ∧
        ∀ other ∈ run :: batchRuns paths run.after, ¬ other.Clears location := by
  obtain ⟨-, htext⟩ := bindings?_eq_ok_iff.1 hplaces.ready
  constructor
  · intro hcontent
    have hsettings : run.start.settingsPlace? ≠ some location := fun hsettings =>
      content?_batchEnd_of_settingsPlace hreport htext hothers hname hsettings hcontent
    refine ⟨hsettings, fun other hmem hclears => ?_⟩
    rw [content?_batchEnd_of_mem_clears hmem hclears hothers hname hsettings] at hcontent
    cases hcontent
  · rintro ⟨hsettings, hkept⟩
    have hlater := content?_batchEnd_of_not_clears
      (fun other hmem => hkept other (List.mem_cons_of_mem run hmem)) hothers hname (by
        rw [(BatchRun.continues_after run).settingsPlace]
        exact hsettings)
    rw [hlater]
    exact BatchRun.content?_after_of_places hplaces hplace (hkept run (List.mem_cons_self ..)) hname
      hsettings

end Ends

/-- A batch for all files that does not fail reports what its runs report, and ends where they end.
-/
theorem execute_writeAllBindings_eq_ok {workspace later : Workspace} {report : BatchResult}
    (hbatch : writeAllBindings.execute workspace = (.ok report, later)) :
    report.succeeded = (projectRuns workspace).filterMap BatchRun.report? ∧
      later.tree = (batchEnd (workspace.settings.files.map (·.path)) workspace).tree := by
  obtain ⟨notices, hrun⟩ := execute_writeAllBindings workspace
  rw [hrun] at hbatch
  split at hbatch
  · obtain ⟨hreport, rfl⟩ := Prod.mk.inj hbatch
    obtain rfl := Except.ok.inj hreport
    exact ⟨rfl, rfl⟩
  · cases hbatch

/-- Suppose the runs of a batch write to different places. The file of a run that succeeds then has
the bindings that were generated for its asset at the end of the batch, unless the settings are kept
there or a clean-up removes it, that of the run itself or of a later one. -/
theorem writeAllBindings_intact_iff (workspace : Workspace) {report : BatchResult}
    {later : Workspace} (hbatch : writeAllBindings.execute workspace = (.ok report, later))
    (hapart : (projectRuns workspace).Pairwise BatchRun.Apart) :
    report.succeeded = (projectRuns workspace).filterMap BatchRun.report? ∧
      ∀ before run after, projectRuns workspace = before ++ run :: after →
        ∀ entry, run.report? = some entry →
          ∃ asset text place, run.start.bindings? run.path = .ok (asset, text) ∧
            run.place? = some place ∧ entry.output = workspace.locate asset.bindingsPath ∧
            (later.tree.readText entry.output = .ok text.code ↔
              workspace.settingsPlace? ≠ some place ∧
                ∀ other ∈ run :: after, ¬ other.Clears place) := by
  obtain ⟨hreport, hlater⟩ := execute_writeAllBindings_eq_ok hbatch
  refine ⟨hreport, fun before run after hsplit entry hentry => ?_⟩
  have houtcome : run.outcome = .ok entry := BatchRun.report?_eq_some_iff.1 hentry
  obtain ⟨asset, text, written, hplaces⟩ := BatchRun.exists_places houtcome
  obtain ⟨hcontinues, rest, rfl, hend⟩ := batchRuns_split hsplit
  have hasset := asset?_of_bindings? hplaces.ready
  let place := placeOf run.start.tree.home (run.start.locate asset.bindingsPath)
  have hplace : run.place? = some place := hplaces.place?
  have houtput : entry.output = workspace.locate asset.bindingsPath := by
    rw [(BatchRun.saves_of_places hplaces).2 entry houtcome]
    exact hcontinues.locate asset.bindingsPath
  have hname : namedMeta place = false :=
    namedMeta_of_namedBindings (namedBindings_place hasset _)
  have hothers : ∀ other ∈ batchRuns rest run.after, other.place? ≠ some place := by
    rw [hsplit, List.pairwise_append, List.pairwise_cons] at hapart
    exact fun other hother => hapart.2.1.1 other hother place hplace
  have hreached : later.tree.locationOf entry.output = .ok place := by
    rw [houtput, ← hcontinues.locate, hlater, hend]
    exact locationOf_batchEnd hplaces rest
  refine ⟨asset, text, place, hplaces.ready, hplace, houtput, ?_⟩
  rw [readText_eq_ok_iff hreached, hlater, hend, ← hcontinues.settingsPlace]
  exact content?_batchEnd_iff houtcome hplaces hplace hname hothers

/-- A history in which two files are taken into a project, bindings are written for the second of
them, and that one then gets a prefix. -/
def renamedHistory : List Operation :=
  [.enable "Menu.uxml",
   .enable "Old/Menu.uxml",
   .writeBindings "Old/Menu.uxml",
   .change "Old/Menu.uxml" fun setting => { setting with filePrefix := "Old" }]

/-- The project after this history. -/
def renamedProject : Workspace :=
  afterAll renamedHistory
    { tree :=
        { entries := .ofList
            [(["Menu.uxml"], Entry.file (.text "<UXML/>")), (["Old"], Entry.directory),
             (["Old", "Menu.uxml"], Entry.file (.text "<UXML/>"))] }
      store := .inMemory {}
      root := ⟨""⟩ }

/-- What the next batch reports. -/
def renamedReport : BatchResult where
  succeeded :=
    [{ source := "Menu.uxml", className := "Menu", output := ⟨"Assets/Markbind/Menu.g.cs"⟩,
       outcome := .written, warnings := [] },
     { source := "Old/Menu.uxml", className := "OldMenu", output := ⟨"Assets/Markbind/OldMenu.g.cs"⟩,
       outcome := .written, warnings := [] }]

/-- The next batch reports two files and removes the first of them. -/
theorem execute_renamedProject :
    ∃ later, writeAllBindings.execute renamedProject = (.ok renamedReport, later) ∧
      later.tree.readText ⟨"Assets/Markbind/Menu.g.cs"⟩ = .error .notFound := by
  have hbatch : (writeAllBindings.execute renamedProject).1 = .ok renamedReport ∧
      (writeAllBindings.execute renamedProject).2.tree.readText ⟨"Assets/Markbind/Menu.g.cs"⟩ =
        .error .notFound := by
    decide +kernel
  exact exists_run hbatch.1 hbatch.2

/-- The runs of the next batch write to two places. -/
theorem projectRuns_renamedProject :
    (projectRuns renamedProject).map BatchRun.place? =
        [some ["Assets", "Markbind", "Menu.g.cs"], some ["Assets", "Markbind", "OldMenu.g.cs"]] ∧
      (projectRuns renamedProject).Pairwise BatchRun.Apart := by
  decide +kernel

theorem writeAllBindings_loses_renamed :
    (projectRuns renamedProject).Pairwise BatchRun.Apart ∧
      ∃ later entry, writeAllBindings.execute renamedProject = (.ok renamedReport, later) ∧
        entry ∈ renamedReport.succeeded ∧ later.tree.readText entry.output = .error .notFound := by
  obtain ⟨later, hbatch, hgone⟩ := execute_renamedProject
  exact ⟨projectRuns_renamedProject.2, later, _, hbatch, List.mem_cons_self .., hgone⟩

theorem writeAllBindings_intact_iff_renamed :
    (projectRuns renamedProject).Pairwise BatchRun.Apart ∧
      ∃ later, writeAllBindings.execute renamedProject = (.ok renamedReport, later) ∧
        renamedReport.succeeded = (projectRuns renamedProject).filterMap BatchRun.report? ∧
        ∀ before run after, projectRuns renamedProject = before ++ run :: after →
          ∀ entry, run.report? = some entry →
            ∃ asset text place, run.start.bindings? run.path = .ok (asset, text) ∧
              run.place? = some place ∧ entry.output = renamedProject.locate asset.bindingsPath ∧
              (later.tree.readText entry.output = .ok text.code ↔
                renamedProject.settingsPlace? ≠ some place ∧
                  ∀ other ∈ run :: after, ¬ other.Clears place) := by
  obtain ⟨later, hbatch, -⟩ := execute_renamedProject
  exact ⟨projectRuns_renamedProject.2, later, hbatch,
    writeAllBindings_intact_iff renamedProject hbatch projectRuns_renamedProject.2⟩

end UxmlBindings.Workspace
