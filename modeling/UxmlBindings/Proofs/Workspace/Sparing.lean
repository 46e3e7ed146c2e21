import UxmlBindings.Proofs.Files.Places
import UxmlBindings.Proofs.Workspace.Names
import UxmlBindings.Proofs.Workspace.Rules

/-!
# Files that operations spare

Operations write and remove files that are named like bindings, and remove the files that describe
these. With settings in memory they spare every other file, as long as the recorded paths of
bindings are named like bindings, which every operation preserves. Runs for scripts are not
considered here.
-/

namespace UxmlBindings.Workspace

open Binding Files FileTree Settings

/-- From one tree to another, what stands at a location is the same unless it is named like
bindings; what is named like a description may also be gone. -/
def SparedAt (before after : FileTree) (location : Location) : Prop :=
  namedBindings location = true ∨ after.content? location = before.content? location ∨
    (namedDescription location = true ∧ after.content? location = none)

section Trees

variable {before middle after tree later : FileTree} {location : Location} {path : Pathname}
  {content : Content}

theorem SparedAt.trans (hfirst : SparedAt before middle location)
    (hsecond : SparedAt middle after location) : SparedAt before after location := by
  rcases hfirst with hnamed | hsame | ⟨hnamed, hgone⟩
  · exact .inl hnamed
  · rcases hsecond with hnamed | hsame' | hdescription
    · exact .inl hnamed
    · exact .inr (.inl (hsame'.trans hsame))
    · exact .inr (.inr hdescription)
  · rcases hsecond with hnamed' | hsame' | hdescription
    · exact .inl hnamed'
    · exact .inr (.inr ⟨hnamed, hsame'.trans hgone⟩)
    · exact .inr (.inr hdescription)

theorem sparedAt_of_keepsFiles (hkeeps : KeepsFiles tree later) (location : Location) :
    SparedAt tree later location :=
  .inr (.inl (hkeeps.content location))

/-- Writing bindings spares all locations. -/
theorem sparedAt_of_writes (hpath : NamesBindings path) (hwrites : Writes path content tree later)
    (location : Location) : SparedAt tree later location := by
  by_cases hplace : placeOf tree.home path = location
  · exact .inl (hplace ▸ namedBindings_placeOf hpath tree.home)
  · exact .inr (.inl ((hwrites.content location).trans (if_neg hplace)))

/-- Removing what is named like bindings or their description spares all locations. -/
theorem sparedAt_of_removes
    (hnamed : namedBindings (placeOf tree.home path) = true ∨
      namedDescription (placeOf tree.home path) = true)
    (hremoves : Removes path tree later) (location : Location) : SparedAt tree later location := by
  have hcontent := hremoves.content location
  by_cases hplace : placeOf tree.home path = location
  · rw [hplace] at hnamed
    rcases hnamed with hbindings | hdescription
    · exact .inl hbindings
    · exact .inr (.inr ⟨hdescription, hcontent.trans (if_pos hplace)⟩)
  · exact .inr (.inl (hcontent.trans (if_neg hplace)))

end Trees

/-- The recorded path of bindings, if there is one, is named like bindings. -/
def RecordNamed (setting : AssetOptions) : Prop :=
  ∀ last, setting.lastBindings = some last → NamesBindings last

/-- All recorded paths of bindings are named like bindings. -/
def RecordsNamed (workspace : Workspace) : Prop :=
  ∀ setting ∈ workspace.settings.files, RecordNamed setting

/-- The rule that files are spared while settings are in memory and records are named like
bindings. -/
def sparing : Rule where
  holds workspace := workspace.InMemory ∧ RecordsNamed workspace
  allows before after := ∀ location, SparedAt before.tree after.tree location
  refl _ := fun _ => .inr (.inl rfl)
  trans hfirst hsecond := fun location => (hfirst location).trans (hsecond location)
  holds_quiet _ _ hholds := hholds
  allows_quiet _ _ := fun _ => .inr (.inl rfl)

section Sparing

variable {workspace : Workspace} {path : Pathname}

/-- Settings can be replaced by others with records that are named like bindings. -/
theorem keeps_setSettings {settings : Settings} (hholds : sparing.holds workspace)
    (hsettings : ∀ setting ∈ settings.files, RecordNamed setting) :
    Keeps sparing workspace (setSettings settings) fun _ => True :=
  .of_execute (execute_setSettings workspace settings) ⟨hholds.1, hsettings⟩
    (sparing.refl workspace) fun _ _ => trivial

theorem keeps_save (hholds : sparing.holds workspace) :
    Keeps sparing workspace save fun _ => True := by
  obtain ⟨saves, hsave⟩ := execute_save_of_inMemory hholds.1
  exact .of_execute hsave ⟨⟨saves, rfl⟩, hholds.2⟩ (sparing.refl workspace) fun _ _ => trivial

/-- A change that keeps records named like bindings spares files. -/
theorem keeps_change {edit : AssetOptions → AssetOptions}
    (hedit : ∀ setting, RecordNamed setting → RecordNamed (edit setting)) (key : String)
    (hholds : sparing.holds workspace) :
    Keeps sparing workspace (change key edit) fun _ => True := by
  obtain ⟨outcome, saves, hchange⟩ := execute_change_of_inMemory hholds.1 key edit
  refine .of_execute hchange ⟨⟨saves, rfl⟩, fun setting hmem => ?_⟩ (sparing.refl workspace)
    fun _ _ => trivial
  rcases mem_of_mem_changeSetting hmem with hold | ⟨other, hother, rfl⟩
  · exact hholds.2 setting hold
  · exact hedit other (hholds.2 other hother)

theorem keeps_enable (key : String) (hholds : sparing.holds workspace) :
    Keeps sparing workspace (enable key) fun _ => True := by
  apply keeps_get_bind
  dsimp only
  split
  · exact keeps_pure hholds trivial
  · refine (keeps_setSettings hholds fun setting hmem => ?_).bind fun _ later _ hlater => ?_
    · rcases eq_or_mem_of_mem_putSetting hmem with rfl | hold
      · exact nofun
      · exact hholds.2 setting hold
    refine (keeps_save hlater).bind fun _ saved _ hsaved => ?_
    exact (keeps_notify _ hsaved).bind fun _ _ _ hlast => keeps_pure hlast trivial

theorem keeps_disable (key : String) (hholds : sparing.holds workspace) :
    Keeps sparing workspace (disable key) fun _ => True := by
  apply keeps_get_bind
  dsimp only
  rw [take_eq]
  cases workspace.settings.find? (keyOf key) with
  | none => exact keeps_pure hholds trivial
  | some setting =>
    refine (keeps_setSettings hholds fun setting hmem => ?_).bind fun _ later _ hlater => ?_
    · exact hholds.2 setting (List.mem_of_mem_eraseP hmem)
    refine (keeps_save hlater).bind fun _ saved _ hsaved => ?_
    exact (keeps_notify _ hsaved).bind fun _ _ _ hlast => keeps_pure hlast trivial

/-- An asset that is opened has a record and a path of bindings that are named like bindings. -/
theorem keeps_openAsset (key : String) (hholds : sparing.holds workspace) :
    Keeps sparing workspace (openAsset key) fun asset =>
      RecordNamed asset.setting ∧ NamesBindings asset.bindingsPath := by
  refine .of_quiet (execute_openAsset workspace key) hholds fun asset hasset => ?_
  have hmem := List.mem_of_find?_eq_some (asset?_eq_ok hasset).1
  exact ⟨hholds.2 asset.setting hmem, namesBindings_of_asset? hasset⟩

/-- Writing a file that is named like bindings spares files. -/
theorem keeps_writeFile (hpath : NamesBindings path) (code : String)
    (hholds : sparing.holds workspace) :
    Keeps sparing workspace (writeFile path code) fun _ => True := by
  have hwrite := execute_writeFile workspace path code
  have hspec := writeWithParents_spec workspace.tree path (.text code)
  generalize workspace.tree.writeWithParents path (.text code) = written at hwrite hspec
  obtain ⟨fault | ⟨⟩, tree⟩ := written
  · exact .of_execute hwrite hholds (sparedAt_of_keepsFiles hspec) nofun
  · exact .of_execute hwrite hholds (sparedAt_of_writes hpath hspec) fun _ _ => trivial

/-- Removing a file that is named like bindings or their description spares files. -/
theorem keeps_removeIfThere
    (hnamed : namedBindings (placeOf workspace.tree.home path) = true ∨
      namedDescription (placeOf workspace.tree.home path) = true)
    (hholds : sparing.holds workspace) :
    Keeps sparing workspace (removeIfThere path) fun _ => True := by
  have hremove := execute_removeIfThere workspace path
  cases htree : workspace.tree.removeFile path with
  | ok tree =>
    rw [htree] at hremove
    exact .of_execute hremove hholds (sparedAt_of_removes hnamed (removes_of_removeFile htree))
      fun _ _ => trivial
  | error fault =>
    rw [htree] at hremove
    cases fault <;>
      exact .of_execute hremove hholds (sparing.refl workspace) fun _ _ => trivial

theorem keeps_removeDescribed (hpath : NamesBindings path) (hholds : sparing.holds workspace) :
    Keeps sparing workspace (removeDescribed path) fun _ => True := by
  refine (keeps_removeIfThere (.inr (namedDescription_placeOf hpath _)) hholds).bind
    fun _ later _ hlater => ?_
  exact keeps_removeIfThere (.inl (namedBindings_placeOf hpath _)) hlater

/-- Removing the bindings of an earlier run spares files if their path is named like bindings. -/
theorem keeps_removeStale {previous : Option Pathname}
    (hprevious : ∀ last, previous = some last → NamesBindings last) (current : Pathname)
    (hholds : sparing.holds workspace) :
    Keeps sparing workspace (removeStale previous current) fun _ => True := by
  unfold removeStale removeStaleOn
  cases previous with
  | none => exact keeps_pure hholds trivial
  | some last =>
    dsimp only
    split
    · exact keeps_pure hholds trivial
    · apply keeps_get_bind
      have hstale : NamesBindings (workspace.locate last) :=
        Pathname.suffix_join (hprevious last rfl)
      refine (keeps_attempt (keeps_removeDescribed hstale hholds)).bind
        fun outcome later _ hlater => ?_
      split
      · exact keeps_notify _ hlater
      · exact keeps_pure hlater trivial
      · exact keeps_notify _ hlater

theorem keeps_requireEnabled (hholds : sparing.holds workspace) :
    Keeps sparing workspace requireEnabled fun _ => True :=
  .of_quiet (execute_requireEnabled workspace) hholds fun _ _ => trivial

theorem keeps_generated {α : Type} (result : Except GenerationError α)
    (hholds : sparing.holds workspace) :
    Keeps sparing workspace (generated result) fun _ => True := by
  cases result with
  | ok value => exact keeps_pure hholds trivial
  | error error => exact keeps_throw _ hholds

theorem keeps_writeBindings (key : String) (hholds : sparing.holds workspace) :
    Keeps sparing workspace (writeBindings key) fun _ => True := by
  refine (keeps_requireEnabled hholds).bind fun _ enabled _ henabled => ?_
  refine (keeps_openAsset key henabled).bind fun asset opened hasset hopened => ?_
  obtain ⟨hrecord, hbindings⟩ := hasset
  refine (keeps_notify _ hopened).bind fun _ noted _ hnoted => keeps_get_bind ?_
  refine (keeps_generated _ hnoted).bind fun text ready _ hready => ?_
  refine (Keeps.of_quiet (execute_forM_notify ready _ _) hready fun _ _ => trivial).bind
    fun _ warned (_ : True) hwarned => ?_
  have houtput : NamesBindings (noted.locate asset.bindingsPath) := Pathname.suffix_join hbindings
  refine (keeps_writeFile houtput _ hwarned).bind fun _ written _ hwritten => ?_
  refine (keeps_removeStale hrecord _ hwritten).bind fun _ cleaned _ hcleaned => ?_
  have hedit (setting : AssetOptions) (_ : RecordNamed setting) :
      RecordNamed (asset.recordBindings setting) := by
    rintro last hlast
    obtain rfl := Option.some.inj hlast
    exact hbindings
  refine (keeps_change hedit _ hcleaned).bind fun _ recorded _ hrecorded => ?_
  exact (keeps_notify _ hrecorded).bind fun _ _ _ hlast => keeps_pure hlast trivial

theorem keeps_writeAllBindings (hholds : sparing.holds workspace) :
    Keeps sparing workspace writeAllBindings fun _ => True := by
  refine (keeps_requireEnabled hholds).bind fun _ enabled _ henabled => keeps_get_bind ?_
  refine (keeps_writeEach (fun path _ => keeps_writeBindings path) _ henabled).bind
    fun report later _ hlater => ?_
  exact (keeps_notify _ hlater).bind fun _ _ _ hlast => keeps_pure hlast trivial

theorem keeps_removeBindings (key : String) (hholds : sparing.holds workspace) :
    Keeps sparing workspace (removeBindings key) fun _ => True := by
  apply keeps_get_bind
  dsimp only
  split
  · exact (keeps_notify _ hholds).bind fun _ _ _ hnoted => keeps_throw _ hnoted
  rename_i setting hfind
  split
  · exact keeps_pure hholds trivial
  rename_i last hlast
  have htarget : NamesBindings (workspace.locate last) :=
    Pathname.suffix_join (hholds.2 setting (List.mem_of_find?_eq_some hfind) last hlast)
  refine (keeps_removeDescribed htarget hholds).bind fun removed later _ hlater => ?_
  have hedit (setting : AssetOptions) (_ : RecordNamed setting) :
      RecordNamed { setting with lastBindings := none } :=
    nofun
  refine (keeps_change hedit _ hlater).bind fun _ changed _ hchanged => ?_
  split
  · exact (keeps_notify _ hchanged).bind fun _ _ _ hnoted => keeps_pure hnoted trivial
  · exact keeps_pure hchanged trivial

/-- Removing what a walk takes for a bindings file spares files. -/
theorem sparing_permitsRemoval : sparing.PermitsRemoval := by
  intro workspace path tree hholds hpath htree
  exact ⟨hholds, sparedAt_of_removes (named_of_isBindingsPath hpath workspace.tree.home)
    (removes_of_removeFile htree)⟩

/-- Forgetting paths leaves records named like bindings. -/
theorem recordNamed_of_mem_forgetMissing (hrecords : RecordsNamed workspace) :
    ∀ setting ∈ forgetMissing workspace workspace.settings.files, RecordNamed setting := by
  intro setting hmem
  obtain ⟨old, hold, rfl⟩ := List.mem_map.1 hmem
  split
  · exact hrecords old hold
  · split
    · exact hrecords old hold
    · exact nofun

theorem keeps_removeAllBindings (hholds : sparing.holds workspace) :
    Keeps sparing workspace removeAllBindings fun _ => True := by
  apply keeps_get_bind
  refine (keeps_foldlM (fun directory _ _ _ => keeps_removeBelow sparing_permitsRemoval directory) _
    hholds).bind fun report cleared _ hcleared => keeps_get_bind ?_
  have hnotify (later : Workspace) (hlater : sparing.holds later) :
      Keeps sparing later (do
        notify (.clearedAll report.removed.length report.failures.length)
        return report) fun _ => True :=
    (keeps_notify _ hlater).bind fun _ _ _ hlast => keeps_pure hlast trivial
  dsimp only
  split
  · have hforget := recordNamed_of_mem_forgetMissing hcleared.2
    refine (keeps_setSettings hcleared hforget).bind fun _ changed _ hchanged => ?_
    exact (keeps_save hchanged).bind fun _ saved _ hsaved => hnotify saved hsaved
  · exact hnotify cleared hcleared

end Sparing

end UxmlBindings.Workspace
