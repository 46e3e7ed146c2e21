import UxmlBindings.Proofs.Workspace.Runs
import UxmlBindings.Proofs.Workspace.Sparing

/-!
# Scripts that overwrite files

A script is written only where nothing can be reached. A file can stand there all the same, behind a
directory that is missing and that writing makes; the script then takes its place. In every run with
settings in memory this is the only way in which a file is lost that is named neither like bindings
nor like their description.
-/

namespace UxmlBindings.Workspace

open Binding Files FileTree Settings

/-- An operation spares files: what is named neither like bindings nor like a description keeps its
content, and what is new is named like bindings, or is a script where nothing was before. -/
structure Spares (operation : Operation) (before after : Workspace) : Prop where
  kept : ∀ location content, before.tree.content? location = some content →
    namedBindings location = false → namedDescription location = false →
    after.tree.content? location = some content
  created : ∀ location content, before.tree.content? location = none →
    after.tree.content? location = some content →
    namedBindings location = true ∨
      ∃ path asset text, operation = .writeScript path ∧ before.script? path = .ok (asset, text) ∧
        location = placeOf before.tree.home (before.locate asset.scriptPath) ∧
        content = .text text.code ∧ before.tree.entryAt location = none

/-- An operation overwrites a file: it writes a script to a path at which nothing can be reached,
but something else stands where that path leads. -/
def Overwrites (operation : Operation) (workspace : Workspace) : Prop :=
  ∃ path asset text content tree, operation = .writeScript path ∧
    workspace.script? path = .ok (asset, text) ∧
    workspace.tree.holds (workspace.locate asset.scriptPath) = false ∧
    workspace.tree.writeWithParents (workspace.locate asset.scriptPath) (.text text.code) =
      (.ok (), tree) ∧
    workspace.tree.content? (placeOf workspace.tree.home (workspace.locate asset.scriptPath)) =
      some content ∧
    content ≠ .text text.code

section Steps

variable {workspace : Workspace}

/-- A run for a script leaves settings in memory and records named like bindings. -/
theorem sparing_holds_writeScript (path : String) (hholds : sparing.holds workspace) :
    sparing.holds ((Operation.writeScript path).after workspace) := by
  obtain ⟨outcome, later, hrun, hmemory, hsettings, -⟩ := writeScript_of_inMemory hholds.1 path
  rw [Operation.after, hrun]
  refine ⟨hmemory, fun setting hmem => ?_⟩
  rcases hsettings with hsame | ⟨asset, hchanged⟩
  · exact hholds.2 setting (hsame ▸ hmem)
  · rw [hchanged] at hmem
    rcases mem_of_mem_changeSetting hmem with hold | ⟨other, hother, rfl⟩
    · exact hholds.2 setting hold
    · exact hholds.2 other hother

/-- Every operation but a run for a script keeps to sparing. -/
theorem keeps_sparing {operation : Operation} (hkeeps : operation.KeepsRecords)
    (hholds : sparing.holds workspace) (hother : ∀ path, operation ≠ .writeScript path) :
    sparing.holds (operation.after workspace) ∧
      sparing.allows workspace (operation.after workspace) := by
  have hafter {α : Type} {action : WorkspaceM α} {yields : α → Prop}
      (h : Keeps sparing workspace action yields) :
      sparing.holds (action.execute workspace).2 ∧
        sparing.allows workspace (action.execute workspace).2 :=
    ⟨h.holds, h.allows⟩
  cases operation with
  | enable path => exact hafter (keeps_enable path hholds)
  | disable path => exact hafter (keeps_disable path hholds)
  | change path edit =>
    have hedit (setting : AssetOptions) (hrecord : RecordNamed setting) :
        RecordNamed (edit setting) := by
      intro last hlast
      exact hrecord last ((hkeeps setting).symm.trans hlast)
    exact hafter (keeps_change hedit path hholds)
  | openAsset path => exact hafter (keeps_openAsset path hholds)
  | writeBindings path => exact hafter (keeps_writeBindings path hholds)
  | writeScript path => exact absurd rfl (hother path)
  | writeAllBindings => exact hafter (keeps_writeAllBindings hholds)
  | removeBindings path => exact hafter (keeps_removeBindings path hholds)
  | removeAllBindings => exact hafter (keeps_removeAllBindings hholds)

/-- Every operation leaves settings in memory and records named like bindings. -/
theorem sparing_holds_after {operation : Operation} (hkeeps : operation.KeepsRecords)
    (hholds : sparing.holds workspace) : sparing.holds (operation.after workspace) := by
  by_cases hscript : ∃ path, operation = .writeScript path
  · obtain ⟨path, rfl⟩ := hscript
    exact sparing_holds_writeScript path hholds
  · exact (keeps_sparing hkeeps hholds (not_exists.1 hscript)).1

/-- An operation that keeps to sparing spares files. -/
theorem spares_of_allows {operation : Operation} {before after : Workspace}
    (hallows : sparing.allows before after) : Spares operation before after := by
  constructor
  · intro location content hcontent hbindings hdescription
    rcases hallows location with hnamed | hsame | ⟨hnamed, -⟩
    · rw [hbindings] at hnamed
      cases hnamed
    · exact hsame.trans hcontent
    · rw [hdescription] at hnamed
      cases hnamed
  · intro location content hnone hcontent
    rcases hallows location with hnamed | hsame | ⟨-, hgone⟩
    · exact .inl hnamed
    · rw [hsame, hnone] at hcontent
      cases hcontent
    · rw [hgone] at hcontent
      cases hcontent

/-- What it takes for a run for a script to overwrite a file. -/
theorem overwrites_writeScript_iff {path : String} {asset : Asset} {text : GeneratedText}
    (hready : workspace.script? path = .ok (asset, text)) :
    Overwrites (.writeScript path) workspace ↔
      workspace.tree.holds (workspace.locate asset.scriptPath) = false ∧
        (∃ tree, workspace.tree.writeWithParents (workspace.locate asset.scriptPath)
          (.text text.code) = (.ok (), tree)) ∧
        ∃ content, workspace.tree.content?
          (placeOf workspace.tree.home (workspace.locate asset.scriptPath)) = some content ∧
          content ≠ .text text.code := by
  constructor
  · rintro ⟨_, _, _, content, tree, ⟨⟩, hother, hholds, hwrite, hcontent, hne⟩
    obtain ⟨rfl, rfl⟩ := Prod.mk.inj (Except.ok.inj (hready.symm.trans hother))
    exact ⟨hholds, ⟨tree, hwrite⟩, content, hcontent, hne⟩
  · rintro ⟨hholds, ⟨tree, hwrite⟩, content, hcontent, hne⟩
    exact ⟨path, asset, text, content, tree, rfl, hready, hholds, hwrite, hcontent, hne⟩

/-- A script that is written where no other file stands spares files. -/
theorem spares_of_writes {path : String} {asset : Asset} {text : GeneratedText} {later : Workspace}
    (hready : workspace.script? path = .ok (asset, text))
    (hwrites : Writes (workspace.locate asset.scriptPath) (.text text.code) workspace.tree later.tree)
    (hfree : ∀ content, workspace.tree.content?
      (placeOf workspace.tree.home (workspace.locate asset.scriptPath)) = some content →
      content = .text text.code) :
    Spares (.writeScript path) workspace later := by
  constructor
  · intro location content hcontent _ _
    rw [hwrites.content location]
    split
    · rename_i hplace
      rw [hfree content (hplace ▸ hcontent)]
    · exact hcontent
  · intro location content hnone hcontent
    have hnew := hwrites.content location
    by_cases hplace : placeOf workspace.tree.home (workspace.locate asset.scriptPath) = location
    · rw [if_pos hplace, hcontent] at hnew
      have hentry : workspace.tree.entryAt location = none := by
        cases hentry : workspace.tree.entryAt location with
        | none => rfl
        | some entry =>
          cases entry with
          | directory =>
            have hdirectory := hwrites.directory location hentry
            rw [content?_eq_some_iff.1 hcontent] at hdirectory
            cases hdirectory
          | file old =>
            rw [content?_eq_some_iff.2 hentry] at hnone
            cases hnone
      exact .inr ⟨path, asset, text, rfl, hready, hplace.symm, Option.some.inj hnew, hentry⟩
    · rw [if_neg hplace, hcontent, hnone] at hnew
      cases hnew

/-- A script that is written spares files unless another file stands where it is written. -/
theorem spares_of_written_iff {path : String} {asset : Asset} {text : GeneratedText}
    {later : Workspace} (hready : workspace.script? path = .ok (asset, text))
    (hwrite : workspace.tree.writeWithParents (workspace.locate asset.scriptPath)
      (.text text.code) = (.ok (), later.tree)) :
    Spares (.writeScript path) workspace later ↔
      ¬ ∃ content, workspace.tree.content?
        (placeOf workspace.tree.home (workspace.locate asset.scriptPath)) = some content ∧
        content ≠ .text text.code := by
  have hspec := writeWithParents_spec workspace.tree (workspace.locate asset.scriptPath)
    (.text text.code)
  rw [hwrite] at hspec
  have hwrites : Writes (workspace.locate asset.scriptPath) (.text text.code) workspace.tree
    later.tree := hspec
  constructor
  · rintro hspares ⟨content, hcontent, hne⟩
    obtain ⟨hasset, hscript⟩ := script?_eq_ok hready
    obtain ⟨hbindings, hdescription⟩ := not_named_scriptPath hasset hscript workspace.tree.home
    have hkept := hspares.kept _ content hcontent hbindings hdescription
    rw [hwrites.content, if_pos rfl] at hkept
    exact hne (Option.some.inj hkept).symm
  · intro hfree
    refine spares_of_writes hready hwrites fun content hcontent => ?_
    by_contra hne
    exact hfree ⟨content, hcontent, hne⟩

/-- Creating a script spares files unless it overwrites one. -/
theorem spares_withScript_iff {path : String} {asset : Asset} {text : GeneratedText}
    {later : Workspace} (hready : workspace.script? path = .ok (asset, text))
    (htree : later.tree =
      withScript workspace.tree (workspace.locate asset.scriptPath) text.code) :
    Spares (.writeScript path) workspace later ↔ ¬ Overwrites (.writeScript path) workspace := by
  rw [overwrites_writeScript_iff hready]
  rw [withScript] at htree
  cases hthere : workspace.tree.holds (workspace.locate asset.scriptPath) with
  | true =>
    rw [if_pos hthere] at htree
    refine iff_of_true (spares_of_allows fun location => .inr (.inl (by rw [htree]))) ?_
    rintro ⟨habsent, -⟩
    cases habsent
  | false =>
    rw [if_neg (by simp [hthere])] at htree
    rcases hwrite : workspace.tree.writeWithParents (workspace.locate asset.scriptPath)
      (.text text.code) with ⟨fault | ⟨⟩, tree⟩
    · rw [hwrite] at htree
      have hspec := writeWithParents_spec workspace.tree (workspace.locate asset.scriptPath)
        (.text text.code)
      rw [hwrite] at hspec
      have hkeeps : KeepsFiles workspace.tree later.tree := by
        rw [htree]
        exact hspec
      refine iff_of_true (spares_of_allows fun location => sparedAt_of_keepsFiles hkeeps location) ?_
      rintro ⟨-, ⟨tree, hok⟩, -⟩
      cases hok
    · rw [hwrite] at htree
      have hwritten : workspace.tree.writeWithParents (workspace.locate asset.scriptPath)
          (.text text.code) = (.ok (), later.tree) := by
        rw [hwrite, htree]
      rw [spares_of_written_iff hready hwritten]
      simp

/-- A run for a script spares files unless it overwrites one. -/
theorem spares_writeScript_iff (path : String) (hholds : sparing.holds workspace) :
    Spares (.writeScript path) workspace ((Operation.writeScript path).after workspace) ↔
      ¬ Overwrites (.writeScript path) workspace := by
  obtain ⟨outcome, later, hrun, -, -, htree⟩ := writeScript_of_inMemory hholds.1 path
  have hafter : (Operation.writeScript path).after workspace = later := by
    rw [Operation.after, hrun]
  rw [hafter]
  cases hready : workspace.script? path with
  | error failure =>
    rw [hready] at htree
    refine iff_of_true (spares_of_allows fun location => .inr (.inl (by rw [htree]))) ?_
    rintro ⟨_, _, _, _, _, ⟨⟩, hother, -⟩
    rw [hready] at hother
    cases hother
  | ok ready =>
    obtain ⟨asset, text⟩ := ready
    rw [hready] at htree
    exact spares_withScript_iff hready htree

/-- An operation spares files unless it overwrites one. -/
theorem spares_after_iff {operation : Operation} (hkeeps : operation.KeepsRecords)
    (hholds : sparing.holds workspace) :
    Spares operation workspace (operation.after workspace) ↔ ¬ Overwrites operation workspace := by
  by_cases hscript : ∃ path, operation = .writeScript path
  · obtain ⟨path, rfl⟩ := hscript
    exact spares_writeScript_iff path hholds
  · refine iff_of_true ?_ ?_
    · exact spares_of_allows (keeps_sparing hkeeps hholds (not_exists.1 hscript)).2
    · rintro ⟨path, _, _, _, _, rfl, -⟩
      exact hscript ⟨path, rfl⟩

/-- Through a run in which no operation overwrites a file, what is named neither like bindings nor
like a description keeps its content. -/
theorem content?_afterAll {operations : List Operation} {location : Location} {content : Content}
    (hholds : sparing.holds workspace)
    (hkeeps : ∀ operation ∈ operations, operation.KeepsRecords)
    (hspare : ∀ before operation after, operations = before ++ operation :: after →
      ¬ Overwrites operation (afterAll before workspace))
    (hcontent : workspace.tree.content? location = some content)
    (hbindings : namedBindings location = false)
    (hdescription : namedDescription location = false) :
    (afterAll operations workspace).tree.content? location = some content := by
  induction operations generalizing workspace with
  | nil => exact hcontent
  | cons operation rest ih =>
    have hoperation : operation.KeepsRecords := hkeeps operation (List.mem_cons_self ..)
    have hspares : Spares operation workspace (operation.after workspace) :=
      (spares_after_iff hoperation hholds).2 (hspare [] operation rest rfl)
    refine ih (sparing_holds_after hoperation hholds)
      (fun other hother => hkeeps other (List.mem_cons_of_mem operation hother))
      (fun before other after hsplit => ?_)
      (hspares.kept location content hcontent hbindings hdescription)
    exact hspare (operation :: before) other after (congrArg (operation :: ·) hsplit)

end Steps

/-- In every run with settings in memory and records that are named like bindings, an operation
spares files unless it overwrites one. -/
theorem afterAll_spares_iff (operations : List Operation) (workspace : Workspace)
    (hmemory : workspace.InMemory) (hrecords : RecordsNamed workspace)
    (hkeeps : ∀ operation ∈ operations, operation.KeepsRecords) (before : List Operation)
    (operation : Operation) (after : List Operation)
    (hsplit : operations = before ++ operation :: after) :
    Spares operation (afterAll before workspace) (operation.after (afterAll before workspace)) ↔
      ¬ Overwrites operation (afterAll before workspace) := by
  subst hsplit
  have hholds : sparing.holds (afterAll before workspace) := by
    refine afterAll_induction ⟨hmemory, hrecords⟩ fun other hother _ hbefore => ?_
    exact sparing_holds_after (hkeeps other (List.mem_append_left _ hother)) hbefore
  exact spares_after_iff (hkeeps operation (by simp)) hholds

/-- A project with a script that was written by hand. The output directory of its markup file leads
through a directory that is missing. -/
def handwrittenProject : Workspace where
  tree :=
    { entries := .ofList
        [(["Assets"], Entry.directory), (["Assets", "UI"], Entry.directory),
         (["Assets", "UI", "Menu.uxml"], Entry.file (.text "<UXML/>")),
         (["Assets", "Menu.cs"], Entry.file (.text "// by hand"))] }
  store := .inMemory
    { files := [{ path := "Assets/UI/Menu.uxml", outputDirectory := "Generated/.." }] }
  root := ⟨""⟩

theorem not_spares_handwritten :
    handwrittenProject.InMemory ∧ RecordsNamed handwrittenProject ∧
      (Operation.writeScript "Assets/UI/Menu.uxml").KeepsRecords ∧
      ¬ Spares (.writeScript "Assets/UI/Menu.uxml") handwrittenProject
        ((Operation.writeScript "Assets/UI/Menu.uxml").after handwrittenProject) := by
  refine ⟨⟨0, rfl⟩, ?_, trivial, fun hspares => ?_⟩
  · intro setting hmem
    obtain rfl := List.mem_singleton.1 hmem
    exact nofun
  · have hkept := hspares.kept ["Assets", "Menu.cs"] (.text "// by hand") (by decide +kernel)
      (by decide) (by decide)
    exact absurd hkept (by decide +kernel)

/-- A run in which a setting is changed and bindings and a script are written. -/
def handwrittenRun : List Operation :=
  [.enable "Assets/Menu.uxml",
   .change "Assets/UI/Menu.uxml" fun setting => { setting with filePrefix := "Main" },
   .writeBindings "Assets/UI/Menu.uxml",
   .writeScript "Assets/UI/Menu.uxml",
   .removeAllBindings]

theorem afterAll_spares_iff_handwritten :
    handwrittenProject.InMemory ∧ RecordsNamed handwrittenProject ∧
      (∀ operation ∈ handwrittenRun, operation.KeepsRecords) ∧
      (Spares (.writeScript "Assets/UI/Menu.uxml")
          (afterAll (handwrittenRun.take 3) handwrittenProject)
          ((Operation.writeScript "Assets/UI/Menu.uxml").after
            (afterAll (handwrittenRun.take 3) handwrittenProject)) ↔
        ¬ Overwrites (.writeScript "Assets/UI/Menu.uxml")
          (afterAll (handwrittenRun.take 3) handwrittenProject)) := by
  have hmemory : handwrittenProject.InMemory := ⟨0, rfl⟩
  have hrecords : RecordsNamed handwrittenProject := by
    intro setting hmem
    obtain rfl := List.mem_singleton.1 hmem
    exact nofun
  have hkeeps : ∀ operation ∈ handwrittenRun, operation.KeepsRecords := by
    simp [handwrittenRun, Operation.KeepsRecords]
  exact ⟨hmemory, hrecords, hkeeps,
    afterAll_spares_iff handwrittenRun handwrittenProject hmemory hrecords hkeeps _ _
      [.removeAllBindings] rfl⟩

end UxmlBindings.Workspace
