import UxmlBindings.Proofs.Workspace.Synced

/-!
# Opening saved settings

A store that is kept in a file writes its settings to the file as a document. Whether that is possible
depends on the files alone, not on the settings. If it is, opening the file again yields the settings
that were saved: all records, all characters of their texts, and the settings of files in their order.
-/

namespace UxmlBindings.Settings

open Files FileTree Workspace

/-- A file can be written at a path: its directory can be made where that is missing, and then the
path leads somewhere where no directory stands. -/
def Writable (tree : FileTree) (path : Pathname) : Prop :=
  ∃ made place, Store.makeParent tree path = (.ok (), made) ∧ made.locationOf path = .ok place ∧
    made.entryAt place ≠ some .directory

/-- A write succeeds exactly if the path leads somewhere where no directory stands. -/
theorem write_eq_ok_iff {tree : FileTree} {path : Pathname} {content : Content} :
    (∃ later, tree.write path content = .ok later) ↔
      ∃ place, tree.locationOf path = .ok place ∧ tree.entryAt place ≠ some .directory := by
  rw [write]
  cases tree.locationOf path with
  | error fault => simp [bind, Except.bind]
  | ok place =>
    simp only [bind, Except.bind, Except.ok.injEq, exists_eq_left']
    cases tree.entryAt place with
    | none => simp
    | some entry => cases entry <;> simp

/-- Saving succeeds exactly if the settings file can be written. -/
theorem save_eq_ok_iff {store : Store} {path : Pathname} (hbacking : store.backing = .file path)
    (tree : FileTree) : (store.save tree).1 = .ok () ↔ Writable tree path := by
  rw [Store.save, hbacking]
  dsimp only
  rcases hmade : Store.makeParent tree path with ⟨fault | _, made⟩
  · refine iff_of_false (by simp) ?_
    rintro ⟨other, place, hother, -⟩
    rw [hmade] at hother
    cases hother
  · have hwritable : Writable tree path ↔
        ∃ later, made.write path (.text store.settings.toText) = .ok later := by
      rw [write_eq_ok_iff, Writable, hmade]
      simp
    rw [hwritable]
    dsimp only
    cases made.write path (.text store.settings.toText) with
    | error fault => simp
    | ok later => simp

/-- Any settings can be saved in a file that can be written, and opening this file then yields the
same settings, whatever the tree and the path are. -/
theorem load_saved (settings : Settings) (tree : FileTree) (path : Pathname) :
    ((Store.save { settings, backing := .file path } tree).1 = .ok () ↔ Writable tree path) ∧
      ∀ saved later, Store.save { settings, backing := .file path } tree = (.ok (), saved, later) →
        later.readText path = .ok settings.toText ∧
          saved = { settings, backing := .file path } ∧
          Store.load later path = .ok { settings, backing := .file path } := by
  refine ⟨save_eq_ok_iff rfl tree, fun saved later hsave => ?_⟩
  let store : Store := { settings, backing := .file path }
  have hbacking : store.backing = .file path := rfl
  rcases save_of_file hbacking tree with ⟨written, hstore, hwrites⟩ | ⟨fault, made, hstore, -⟩
  · have hends := hstore.symm.trans hsave
    simp only [Prod.mk.injEq, true_and] at hends
    obtain ⟨hsaved, rfl⟩ := hends
    refine ⟨?_, hsaved.symm, load_of_writes hbacking hwrites⟩
    rw [readText_eq_ok_iff hwrites.reached, hwrites.content, if_pos rfl]
  · exact absurd (congrArg Prod.fst (hstore.symm.trans hsave)) nofun

/-- In an empty directory the standard settings file can be written. -/
theorem writable_standard : Writable {} CommandLine.standardSettingsFile :=
  ⟨_, _, rfl, rfl, by decide⟩

/-- Settings with characters that are written as escapes. -/
def escapedSettings : Settings where
  files := [{ path := "\"Menu\"\t\\.uxml", lastBindings := some ⟨"Menü.g.cs"⟩ }, { path := "" }]

theorem load_saved_standard :
    ∃ later,
      Store.save { settings := escapedSettings, backing := .file CommandLine.standardSettingsFile } {} =
          (.ok (), { settings := escapedSettings, backing := .file CommandLine.standardSettingsFile },
            later) ∧
        Store.load later CommandLine.standardSettingsFile =
          .ok { settings := escapedSettings, backing := .file CommandLine.standardSettingsFile } := by
  obtain ⟨hsaves, hloads⟩ := load_saved escapedSettings {} CommandLine.standardSettingsFile
  have hok := hsaves.2 writable_standard
  rcases hsave : Store.save
    { settings := escapedSettings, backing := .file CommandLine.standardSettingsFile } {} with
    ⟨outcome, saved, later⟩
  rw [hsave] at hok
  obtain rfl : outcome = .ok () := hok
  obtain ⟨-, rfl, hload⟩ := hloads saved later hsave
  exact ⟨later, rfl, hload⟩

end UxmlBindings.Settings
