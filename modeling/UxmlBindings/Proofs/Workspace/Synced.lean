import UxmlBindings.CommandLine.Program
import UxmlBindings.Proofs.Settings.Reading
import UxmlBindings.Proofs.Workspace.Courses

/-!
# Settings in memory and in their file

A store that was opened from a file holds what opening the file again yields. Every operation leaves
it so if no save fails: the settings are saved whenever they were replaced, the text of settings is
read as the settings, and no generated file takes the place of the settings file. A file that is
missing counts as default settings, which name no files, so there is nothing to generate then. It
makes no difference therefore whether the store is opened again between operations.
-/

namespace UxmlBindings.Workspace

open Binding Files FileTree Settings

section Stores

variable {tree later : FileTree} {path : Pathname} {store : Store}

/-- A store that was opened holds what is in its file, or default settings if there is no file. -/
theorem load_eq_ok (hload : Store.load tree path = .ok store) :
    store.backing = .file path ∧
      ((tree.readText path = .error .notFound ∧ store.settings = {}) ∨
        ∃ text, tree.readText path = .ok text ∧ Settings.ofText? text = some store.settings) := by
  unfold Store.load at hload
  split at hload
  · rename_i hread
    obtain rfl := Except.ok.inj hload
    exact ⟨rfl, .inl ⟨hread, rfl⟩⟩
  · cases hload
  · rename_i text hread
    split at hload
    · rename_i settings hsettings
      obtain rfl := Except.ok.inj hload
      exact ⟨rfl, .inr ⟨text, hread, hsettings⟩⟩
    · cases hload

/-- A path at which a text is read leads to the file with the text. -/
theorem content?_of_readText {text : String} (hread : tree.readText path = .ok text) :
    tree.locationOf path = .ok (placeOf tree.home path) ∧
      tree.content? (placeOf tree.home path) = some (.text text) := by
  obtain ⟨location, hpath, -⟩ := bind_eq_ok_iff.1 hread
  obtain rfl := eq_placeOf hpath
  exact ⟨hpath, (readText_eq_ok_iff hpath).1 hread⟩

/-- What opens as a store opens as the same store where the settings file is left alone. -/
theorem load_of_keepsOthers (hload : Store.load tree path = .ok store)
    (hfiles : store.settings.files ≠ []) (hname : namedOutput (placeOf tree.home path) = false)
    (hkeeps : KeepsOthers tree later) : Store.load later path = .ok store := by
  obtain ⟨hbacking, ⟨-, hempty⟩ | ⟨text, hread, hsettings⟩⟩ := load_eq_ok hload
  · exact absurd (congrArg Settings.files hempty) hfiles
  · obtain ⟨hpath, hcontent⟩ := content?_of_readText hread
    have hlater : later.readText path = .ok text := by
      rw [readText_eq_ok_iff (hkeeps.locationOf hpath), hkeeps.others _ hname]
      exact hcontent
    rw [Store.load, hlater]
    dsimp only
    rw [hsettings, ← hbacking]

/-- Settings that were saved are those that are opened. -/
theorem load_of_writes (hbacking : store.backing = .file path)
    (hwrites : Writes path (.text store.settings.toText) tree later) :
    Store.load later path = .ok store := by
  have hread : later.readText path = .ok store.settings.toText := by
    rw [readText_eq_ok_iff hwrites.reached, hwrites.content, if_pos rfl]
  rw [Store.load, hread]
  dsimp only
  rw [Settings.ofText?_toText, ← hbacking]

end Stores

/-- The settings are kept in a file and are those in memory. -/
structure Synced (path : Pathname) (workspace : Workspace) : Prop extends Filed path workspace where
  load : Store.load workspace.tree path = .ok workspace.store

section Steps

variable {edits : Settings → Settings → Prop} {workspace before after : Workspace} {path : Pathname}

/-- Every step leaves the settings in memory those in the file, unless a save fails. -/
theorem Step.synced (hstep : Step edits False before after) (hedits : KeepsNamed edits)
    (hsynced : Synced path before) : Synced path after := by
  refine ⟨(hstep.filed hedits hsynced.toFiled).1, ?_⟩
  cases hstep with
  | note notices => exact hsynced.load
  | files hfiles hkeeps =>
    exact load_of_keepsOthers hsynced.load hfiles hsynced.other (hkeeps hsynced.named)
  | @saved settings _ hedit hsave =>
    have hbacking : (before.withSettings settings).store.backing = .file path := hsynced.backing
    rcases writes_of_save hbacking hsave with ⟨hstore, ⟨-, hwrites⟩ | ⟨⟨failure, hfails⟩, -⟩⟩
    · exact hstore ▸ load_of_writes hbacking hwrites
    · cases hfails
  | unsaved _ hfalse _ => exact hfalse.elim

/-- An operation in which no save fails leaves the settings in memory those in the file. -/
theorem Synced.operation (hsynced : Synced path workspace) {operation : Operation}
    (hkeeps : operation.KeepsRecords) (hsaves : operation.saveFails workspace = false) :
    Synced path (operation.after workspace) := by
  have hcourse : Course (operation.Edits workspace.settings) False workspace
      (operation.after workspace) :=
    (operation.course workspace).mono fun hfails => by
      rw [hsaves] at hfails
      cases hfails
  generalize operation.after workspace = later at hcourse
  induction hcourse with
  | refl => exact hsynced
  | tail _ hstep ih =>
    exact hstep.synced (keepsNamed_edits hkeeps workspace.settings) ih

/-- A change of the files by others that leaves the settings file alone leaves the settings in memory
those in the file. -/
theorem Synced.outside (hsynced : Synced path workspace) {tree : FileTree}
    (hhome : tree.home = workspace.tree.home)
    (hread : tree.readText path = workspace.tree.readText path) :
    Synced path ((Event.outside tree).after workspace) := by
  refine ⟨⟨hsynced.backing, hhome ▸ hsynced.other, hsynced.named⟩, ?_⟩
  have hload := hsynced.load
  unfold Store.load at hload ⊢
  rw [Event.after, hread]
  exact hload

end Steps

/-- An operation keeps to what is recorded of bindings and saves the settings without failure. Others
leave the file at a path alone. -/
def Event.Undisturbed (path : Pathname) : Event → Workspace → Prop
  | .own operation, workspace => operation.KeepsRecords ∧ operation.saveFails workspace = false
  | .outside tree, workspace =>
    tree.home = workspace.tree.home ∧ tree.readText path = workspace.tree.readText path

/-- The workspace with its store opened again from a file, or as it is. -/
def reopened (path : Pathname) : Bool → Workspace → Except StoreFault Workspace
  | true, workspace => (Store.load workspace.tree path).map fun store => { workspace with store }
  | false, workspace => .ok workspace

/-- A run of events before some of which the store is opened again, with what comes of the
operations. -/
def runReopening (path : Pathname) :
    List (Bool × Event) → Workspace → Except StoreFault (List (Except Failure Yield) × Workspace)
  | [], workspace => .ok ([], workspace)
  | (reopens, event) :: rest, workspace => do
    let opened ← reopened path reopens workspace
    let (later, last) ← runReopening path rest (event.after opened)
    return ((event.outcome? opened).toList ++ later, last)

section Events

variable {path : Pathname} {workspace : Workspace}

/-- The settings in memory are those in the file throughout an undisturbed run. -/
theorem synced_afterEvents {events : List Event} (hsynced : Synced path workspace)
    (hrun : Throughout (Event.Undisturbed path) events workspace) :
    Synced path (afterEvents events workspace) := by
  induction events generalizing workspace with
  | nil => exact hsynced
  | cons event rest ih =>
    obtain ⟨hevent, hrest⟩ := hrun
    refine ih ?_ hrest
    cases event with
    | own operation => exact hsynced.operation hevent.1 hevent.2
    | outside tree => exact hsynced.outside hevent.1 hevent.2

/-- Where the settings in memory are those in the file before every event, opening the store again
makes no difference. -/
theorem runReopening_eq {flagged : List (Bool × Event)}
    (hload : ∀ before after, flagged.map (·.2) = before ++ after →
      Store.load (afterEvents before workspace).tree path =
        .ok (afterEvents before workspace).store) :
    runReopening path flagged workspace =
      .ok (outcomes (flagged.map (·.2)) workspace, afterEvents (flagged.map (·.2)) workspace) := by
  induction flagged generalizing workspace with
  | nil => rfl
  | cons first rest ih =>
    obtain ⟨reopens, event⟩ := first
    have hopened : reopened path reopens workspace = .ok workspace := by
      -- No event has happened yet, so the first event is preceded by the empty run.
      have hstart : Store.load workspace.tree path = .ok workspace.store := hload [] _ rfl
      cases reopens with
      | true =>
        rw [reopened, hstart]
        rfl
      | false => rfl
    have hrest : runReopening path rest (event.after workspace) =
        .ok (outcomes (rest.map (·.2)) (event.after workspace),
          afterEvents (rest.map (·.2)) (event.after workspace)) :=
      ih fun before after hsplit => hload (event :: before) after (congrArg (event :: ·) hsplit)
    rw [runReopening, hopened]
    simp only [bind, Except.bind, hrest]
    rfl

/-- No generated file has the name of the standard settings file. -/
theorem namedOutput_standardSettingsFile (root : Pathname) (home : Location) :
    namedOutput (placeOf home (root.join CommandLine.standardSettingsFile)) = false := by
  have hpiece : (root.join CommandLine.standardSettingsFile).pieces.getLast? =
      some "MarkbindSettings.json".toList := by
    rw [Pathname.getLast?_pieces_join]
    decide
  rw [namedOutput, getLast?_placeOf hpiece (turnOf_of_length (by decide)), Option.any_some]
  decide

end Events

/-- Suppose the store of a project was opened from the standard settings file, and what is recorded of
bindings is named like bindings. In a run in which no save fails and others leave the settings file
alone, opening that file after any event yields the settings in memory. Opening the store again
before any events makes no difference to what comes of the operations, or to the workspace. -/
theorem afterEvents_synced (workspace : Workspace) (events : List Event) (path : Pathname)
    (hpath : path = workspace.root.join CommandLine.standardSettingsFile)
    (hopen : Store.load workspace.tree path = .ok workspace.store)
    (hnamed : RecordsNamed workspace)
    (hrun : Throughout (Event.Undisturbed path) events workspace) :
    (∀ before after, events = before ++ after →
        Store.load (afterEvents before workspace).tree path =
          .ok (afterEvents before workspace).store) ∧
      ∀ flagged : List (Bool × Event), flagged.map (·.2) = events →
        runReopening path flagged workspace =
          .ok (outcomes events workspace, afterEvents events workspace) := by
  have hother : namedOutput (placeOf workspace.tree.home path) = false :=
    hpath ▸ namedOutput_standardSettingsFile _ _
  have hstart : Synced path workspace := ⟨⟨(load_eq_ok hopen).1, hother, hnamed⟩, hopen⟩
  have hload (before after : List Event) (hsplit : events = before ++ after) :
      Store.load (afterEvents before workspace).tree path =
        .ok (afterEvents before workspace).store :=
    (synced_afterEvents hstart (throughout_append.1 (hsplit ▸ hrun)).1).load
  refine ⟨hload, ?_⟩
  rintro flagged rfl
  exact runReopening_eq hload

/-- A project without settings file. -/
def unsavedProject : Workspace where
  tree := { entries := .ofList [(["Menu.uxml"], Entry.file (.text "<UXML/>"))] }
  store := { settings := {}, backing := .file CommandLine.standardSettingsFile }
  root := ⟨""⟩

/-- A run in which a file is taken into the project, its setting is changed, its bindings are written
and removed, and somebody else adds a file. -/
def unsavedRun : List Event :=
  [.outside
    { entries := .ofList
        [(["Menu.uxml"], Entry.file (.text "<UXML/>")), (["Notes.txt"], Entry.file (.text "notes"))] },
   .own (.enable "Menu.uxml"),
   .own (.writeBindings "Menu.uxml"),
   .own (.change "Menu.uxml" fun setting => { setting with filePrefix := "Main" }),
   .own (.removeBindings "Menu.uxml")]

theorem undisturbed_unsavedRun :
    Throughout (Event.Undisturbed CommandLine.standardSettingsFile) unsavedRun unsavedProject := by
  refine ⟨⟨rfl, ?_⟩, ⟨trivial, ?_⟩, ⟨trivial, ?_⟩, ⟨fun _ => rfl, ?_⟩, ⟨trivial, ?_⟩, trivial⟩
  all_goals decide +kernel

theorem afterEvents_synced_unsaved :
    Store.load unsavedProject.tree CommandLine.standardSettingsFile = .ok unsavedProject.store ∧
      RecordsNamed unsavedProject ∧
      Throughout (Event.Undisturbed CommandLine.standardSettingsFile) unsavedRun unsavedProject ∧
      (∀ before after, unsavedRun = before ++ after →
        Store.load (afterEvents before unsavedProject).tree CommandLine.standardSettingsFile =
          .ok (afterEvents before unsavedProject).store) ∧
      ∀ flagged : List (Bool × Event), flagged.map (·.2) = unsavedRun →
        runReopening CommandLine.standardSettingsFile flagged unsavedProject =
          .ok (outcomes unsavedRun unsavedProject, afterEvents unsavedRun unsavedProject) := by
  have hopen : Store.load unsavedProject.tree CommandLine.standardSettingsFile =
      .ok unsavedProject.store := by
    decide +kernel
  have hnamed : RecordsNamed unsavedProject := nofun
  have hpath : CommandLine.standardSettingsFile =
      unsavedProject.root.join CommandLine.standardSettingsFile := by
    decide
  exact ⟨hopen, hnamed, undisturbed_unsavedRun,
    afterEvents_synced unsavedProject unsavedRun _ hpath hopen hnamed undisturbed_unsavedRun⟩

end UxmlBindings.Workspace
