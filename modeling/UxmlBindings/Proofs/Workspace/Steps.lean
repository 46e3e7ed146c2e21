import Mathlib.Logic.Relation
import UxmlBindings.Proofs.Workspace.Batch
import UxmlBindings.Proofs.Workspace.Sparing

/-!
# Steps of operations

Whatever an operation does to a project, it does in steps of three kinds: it notes something, it
writes or removes files with the names of generated files, and it replaces the settings and saves
them. How the settings are replaced depends on the operation, and a save that fails shows in what the
operation yields. So what every such step preserves, every operation preserves. Files with other
names are safe as long as the recorded paths of bindings are named like bindings.
-/

namespace UxmlBindings.Workspace

open Binding Files FileTree Settings

/-- Whether what stands at a location has the name of a generated file. -/
def namedOutput (location : Location) : Bool :=
  location.getLast?.any fun name =>
    endsIn name scriptEnding || endsIn name (bindingsEnding ++ metaEnding)

/-- A later tree has what an earlier one has, apart from files with the names of generated files. -/
structure KeepsOthers (earlier later : FileTree) : Prop extends Grows earlier later where
  others : ∀ location, namedOutput location = false →
    later.content? location = earlier.content? location

section Trees

variable {tree made later : FileTree} {path : Pathname} {content : Content} {location : Location}

theorem namedOutput_of_namedBindings (hnamed : namedBindings location = true) :
    namedOutput location = true := by
  unfold namedBindings at hnamed
  unfold namedOutput
  cases hlast : location.getLast? with
  | none =>
    rw [hlast] at hnamed
    cases hnamed
  | some name =>
    rw [hlast, Option.any_some, endsIn, List.isSuffixOf_iff_suffix] at hnamed
    have hscript : scriptEnding.toList <:+ name.toList :=
      (show scriptEnding.toList <:+ bindingsEnding.toList by decide).trans hnamed
    rw [Option.any_some, Bool.or_eq_true_iff]
    exact .inl (List.isSuffixOf_iff_suffix.2 hscript)

theorem namedOutput_of_namedDescription (hnamed : namedDescription location = true) :
    namedOutput location = true := by
  unfold namedDescription at hnamed
  unfold namedOutput
  cases hlast : location.getLast? with
  | none =>
    rw [hlast] at hnamed
    cases hnamed
  | some name =>
    rw [hlast] at hnamed
    rw [Option.any_some, Bool.or_eq_true_iff]
    exact .inr hnamed

theorem KeepsOthers.refl (tree : FileTree) : KeepsOthers tree tree :=
  ⟨.refl tree, fun _ _ => rfl⟩

theorem KeepsOthers.trans (hfirst : KeepsOthers tree made) (hsecond : KeepsOthers made later) :
    KeepsOthers tree later :=
  ⟨hfirst.toGrows.trans hsecond.toGrows, fun location hname =>
    (hsecond.others location hname).trans (hfirst.others location hname)⟩

theorem keepsOthers_of_keepsFiles (hkeeps : KeepsFiles tree later) : KeepsOthers tree later :=
  ⟨hkeeps.toGrows, fun location _ => hkeeps.content location⟩

theorem keepsOthers_of_writes (hname : namedOutput (placeOf tree.home path) = true)
    (hwrites : Writes path content tree later) : KeepsOthers tree later := by
  refine ⟨hwrites.toGrows, fun location hother => ?_⟩
  rw [hwrites.content, if_neg]
  rintro rfl
  rw [hname] at hother
  cases hother

theorem keepsOthers_of_removes (hname : namedOutput (placeOf tree.home path) = true)
    (hremoves : Removes path tree later) : KeepsOthers tree later := by
  refine ⟨hremoves.toGrows, fun location hother => ?_⟩
  rw [hremoves.content, if_neg]
  rintro rfl
  rw [hname] at hother
  cases hother

/-- Writing a file with the name of a generated one keeps all others, whether it succeeds or not. -/
theorem keepsOthers_writeWithParents (hname : namedOutput (placeOf tree.home path) = true)
    (content : Content) : KeepsOthers tree (tree.writeWithParents path content).2 := by
  have hspec := writeWithParents_spec tree path content
  generalize tree.writeWithParents path content = written at hspec ⊢
  obtain ⟨fault | ⟨⟩, later⟩ := written
  · exact keepsOthers_of_keepsFiles hspec
  · exact keepsOthers_of_writes hname hspec

theorem keepsOthers_withoutFile (hpath : NamesBindings path) :
    KeepsOthers tree (withoutFile tree path) := by
  unfold withoutFile
  split
  · rename_i later hremove
    have hname := namedOutput_of_namedBindings (namedBindings_placeOf hpath tree.home)
    exact keepsOthers_of_removes hname (removes_of_removeFile hremove)
  · exact .refl tree

theorem keepsOthers_withoutDescribed (hpath : NamesBindings path) :
    KeepsOthers tree (withoutDescribed tree path) := by
  unfold withoutDescribed withoutDescription?
  cases hremove : tree.removeFile (path.extend metaEnding) with
  | ok later =>
    have hname := namedOutput_of_namedDescription (namedDescription_placeOf hpath tree.home)
    have hdescription := keepsOthers_of_removes hname (removes_of_removeFile hremove)
    exact hdescription.trans (keepsOthers_withoutFile hpath)
  | error fault =>
    cases fault with
    | notFound => exact keepsOthers_withoutFile hpath
    | _ => exact .refl tree

end Trees

/-- The settings differ in what is recorded of generated files. Bindings that are recorded anew are
named as they should be. -/
structure Records (before after : Settings) : Prop where
  keys : after.keys = before.keys
  named : (∀ setting ∈ before.files, RecordNamed setting) →
    ∀ setting ∈ after.files, RecordNamed setting

/-- Edits after which bindings are recorded under names of bindings if they were so before. -/
def KeepsNamed (edits : Settings → Settings → Prop) : Prop :=
  ∀ settings settings', edits settings settings' →
    (∀ setting ∈ settings.files, RecordNamed setting) →
      ∀ setting ∈ settings'.files, RecordNamed setting

/-- How an operation that starts with some settings may replace them. Only what is recorded of
generated files is replaced more than once. -/
def Operation.Edits (operation : Operation) (start before after : Settings) : Prop :=
  match operation with
  | .enable path => before = start ∧ after = start.add (.initial (keyOf path) start.project)
  | .disable path => before = start ∧ after = start.remove (keyOf path)
  | .change path edit => before = start ∧ after = start.change (keyOf path) edit
  | _ => Records before after

/-- A step of an operation that edits the settings in a certain way. A save that fails is a reason for
something else. -/
inductive Step (edits : Settings → Settings → Prop) (reason : Prop) (before : Workspace) :
    Workspace → Prop
  | note (notices : List Notice) : Step edits reason before (before.withNotices notices)
  | files {tree : FileTree} (hfiles : before.settings.files ≠ [])
      (hkeeps : RecordsNamed before → KeepsOthers before.tree tree) :
      Step edits reason before (before.withTree tree)
  | saved {settings : Settings} {later : Workspace} (hedit : edits before.settings settings)
      (hsave : save.execute (before.withSettings settings) = (.ok (), later)) :
      Step edits reason before later
  | unsaved {settings : Settings} {later : Workspace} {failure : Failure}
      (hedit : edits before.settings settings) (hreason : reason)
      (hsave : save.execute (before.withSettings settings) = (.error failure, later)) :
      Step edits reason before later

/-- Any number of steps. -/
abbrev Course (edits : Settings → Settings → Prop) (reason : Prop) : Workspace → Workspace → Prop :=
  Relation.ReflTransGen (Step edits reason)

section Courses

variable {edits : Settings → Settings → Prop} {reason : Prop} {workspace before after : Workspace}
  {α : Type}

/-- Saving leaves the settings in memory as they are. -/
theorem settings_of_save {outcome : Except Failure Unit}
    (hsave : save.execute before = (outcome, after)) : after.settings = before.settings := by
  have hkept : (before.store.save before.tree).2.1.settings = before.store.settings := by
    cases hbacking : before.store.backing with
    | memory saves => rw [Store.save, hbacking]
    | file path =>
      rcases save_of_file hbacking before.tree with ⟨later, hstore, -⟩ | ⟨fault, later, hstore, -⟩ <;>
        rw [hstore]
  rw [execute_save] at hsave
  generalize before.store.save before.tree = saved at hkept hsave
  obtain ⟨-, rfl⟩ := Prod.mk.inj hsave
  exact hkept

/-- A save that succeeds is one of the store. -/
theorem store_of_save (hsave : save.execute before = (.ok (), after)) :
    before.store.save before.tree = (.ok (), after.store, after.tree) ∧
      after.root = before.root ∧ after.sessionTypes = before.sessionTypes := by
  rw [execute_save] at hsave
  rcases hstore : before.store.save before.tree with ⟨error | ⟨⟩, store, tree⟩
  · rw [hstore] at hsave
    cases hsave
  · rw [hstore] at hsave
    obtain ⟨-, rfl⟩ := Prod.mk.inj hsave
    exact ⟨rfl, rfl, rfl⟩

/-- Saving a store that is kept in a file writes the settings to the file, or changes no file and
fails. -/
theorem writes_of_save {path : Pathname} {outcome : Except Failure Unit}
    (hbacking : before.store.backing = .file path) (hsave : save.execute before = (outcome, after)) :
    after.store = before.store ∧
      ((outcome = .ok () ∧ Writes path (.text before.settings.toText) before.tree after.tree) ∨
        (∃ failure, outcome = .error failure) ∧ KeepsFiles before.tree after.tree) := by
  rw [execute_save] at hsave
  rcases save_of_file hbacking before.tree with
    ⟨later, hstore, hwrites⟩ | ⟨fault, later, hstore, hkeeps⟩
  · rw [hstore] at hsave
    obtain ⟨rfl, rfl⟩ := Prod.mk.inj hsave
    exact ⟨rfl, .inl ⟨rfl, hwrites⟩⟩
  · rw [hstore] at hsave
    obtain ⟨rfl, rfl⟩ := Prod.mk.inj hsave
    exact ⟨rfl, .inr ⟨⟨_, rfl⟩, hkeeps⟩⟩

/-- A save that fails, fails with an error of the store. -/
theorem eq_settings_of_save {failure : Failure}
    (hsave : save.execute before = (.error failure, after)) :
    ∃ error, failure = .settings error := by
  rw [execute_save] at hsave
  generalize before.store.save before.tree = saved at hsave
  obtain ⟨error | ⟨⟩, store, tree⟩ := saved
  · exact ⟨error, (Except.error.inj (Prod.mk.inj hsave).1).symm⟩
  · cases hsave

theorem Course.note (hcourse : Course edits reason before after) (notices : List Notice) :
    Course edits reason before (after.withNotices notices) :=
  hcourse.tail (.note notices)

theorem Course.files (hcourse : Course edits reason before after)
    (hfiles : after.settings.files ≠ []) {tree : FileTree}
    (hkeeps : RecordsNamed after → KeepsOthers after.tree tree) :
    Course edits reason before (after.withTree tree) :=
  hcourse.tail (.files hfiles hkeeps)

/-- A course has its reasons for what it implies. -/
theorem Course.mono {reason' : Prop} (hcourse : Course edits reason before after)
    (hreason : reason → reason') : Course edits reason' before after := by
  refine Relation.ReflTransGen.mono (fun first second hstep => ?_) _ _ hcourse
  cases hstep with
  | note notices => exact .note notices
  | files hfiles hkeeps => exact .files hfiles hkeeps
  | saved hedit hsave => exact .saved hedit hsave
  | unsaved hedit hgiven hsave => exact .unsaved hedit (hreason hgiven) hsave

/-- An action has failed because the settings could not be saved. -/
def Unsaved (outcome : Except Failure α) : Prop :=
  ∃ error, outcome = .error (.settings error)

/-- Replacing the settings and saving them is a step. -/
theorem Course.save {settings : Settings}
    (hcourse : Course edits (Unsaved (Workspace.save.execute (after.withSettings settings)).1)
      before after)
    (hedit : edits after.settings settings) :
    Course edits (Unsaved (Workspace.save.execute (after.withSettings settings)).1) before
      (Workspace.save.execute (after.withSettings settings)).2 := by
  rcases hsave : Workspace.save.execute (after.withSettings settings) with ⟨⟨failure⟩ | ⟨⟩, later⟩
  · obtain ⟨error, rfl⟩ := eq_settings_of_save hsave
    rw [hsave] at hcourse
    exact hcourse.tail (.unsaved hedit ⟨error, rfl⟩ hsave)
  · rw [hsave] at hcourse
    exact hcourse.tail (.saved hedit hsave)

/-- A change of a setting is a step, or nothing if there is no such setting. -/
theorem Course.change {path : String} {edit : AssetOptions → AssetOptions}
    (hcourse : Course edits (Unsaved ((Workspace.change path edit).execute after).1) before after)
    (hedit : edits after.settings (after.settings.change (keyOf path) edit)) :
    Course edits (Unsaved ((Workspace.change path edit).execute after).1) before
      ((Workspace.change path edit).execute after).2 := by
  rw [execute_change] at hcourse ⊢
  cases hfind : after.settings.find? (keyOf path) with
  | none =>
    rw [hfind] at hcourse
    exact hcourse
  | some setting =>
    rw [hfind] at hcourse
    exact hcourse.save hedit

/-- A course goes on where its outcome is passed on and something is noted. -/
theorem Course.passOn {β : Type} {outcome : Except Failure α}
    (hcourse : Course edits (Unsaved outcome) before after) (value : α → β)
    (notices : List Notice) :
    Course edits (Unsaved (outcome.map value)) before (after.withNotices notices) := by
  refine (hcourse.mono ?_).note notices
  rintro ⟨error, rfl⟩
  exact ⟨error, rfl⟩

/-- What every edit of the settings preserves, a course preserves. -/
theorem Course.settings {holds : Settings → Prop} (hcourse : Course edits reason before after)
    (hedits : ∀ settings settings', edits settings settings' → holds settings → holds settings')
    (hbefore : holds before.settings) : holds after.settings := by
  induction hcourse with
  | refl => exact hbefore
  | tail _ hstep ih =>
    cases hstep with
    | note notices => exact ih
    | files hfiles hkeeps => exact ih
    | saved hedit hsave | unsaved hedit _ hsave =>
      rw [settings_of_save hsave]
      exact hedits _ _ hedit ih

end Courses

/-- The settings are kept in the file at a path, which is not named like a generated file, and
bindings are recorded under names of bindings. -/
structure Filed (path : Pathname) (workspace : Workspace) : Prop where
  backing : workspace.store.backing = .file path
  other : namedOutput (placeOf workspace.tree.home path) = false
  named : RecordsNamed workspace

section Filed

variable {edits : Settings → Settings → Prop} {reason : Prop} {before after : Workspace}
  {path : Pathname}

/-- Settings that are kept in a file remain there. -/
theorem Step.filed (hstep : Step edits reason before after) (hedits : KeepsNamed edits)
    (hfiled : Filed path before) : Filed path after ∧ after.tree.home = before.tree.home := by
  have hsaved {settings : Settings} {outcome : Except Failure Unit}
      (hedit : edits before.settings settings)
      (hsave : save.execute (before.withSettings settings) = (outcome, after)) :
      Filed path after ∧ after.tree.home = before.tree.home := by
    have hbacking : (before.withSettings settings).store.backing = .file path := hfiled.backing
    obtain ⟨hstore, hwrites⟩ := writes_of_save hbacking hsave
    have hhome : after.tree.home = before.tree.home :=
      hwrites.elim (fun h => h.2.home) fun h => h.2.home
    have hnamed : RecordsNamed after := by
      rw [RecordsNamed, settings_of_save hsave]
      exact hedits _ _ hedit hfiled.named
    exact ⟨⟨hstore ▸ hbacking, hhome ▸ hfiled.other, hnamed⟩, hhome⟩
  cases hstep with
  | note notices => exact ⟨⟨hfiled.backing, hfiled.other, hfiled.named⟩, rfl⟩
  | files hfiles hkeeps =>
    have hhome := (hkeeps hfiled.named).home
    exact ⟨⟨hfiled.backing, hhome ▸ hfiled.other, hfiled.named⟩, hhome⟩
  | saved hedit hsave => exact hsaved hedit hsave
  | unsaved hedit _ hsave => exact hsaved hedit hsave

/-- What a step does about the settings and their file: it changes neither, or it replaces the
settings, and saves them or leaves the file as it is. -/
theorem Step.settingsFile (hstep : Step edits reason before after) (hfiled : Filed path before) :
    (after.settings = before.settings ∧
        after.tree.content? (placeOf before.tree.home path) =
          before.tree.content? (placeOf before.tree.home path)) ∨
      (edits before.settings after.settings ∧
        (after.tree.content? (placeOf before.tree.home path) =
            some (.text after.settings.toText) ∨
          reason ∧ after.tree.content? (placeOf before.tree.home path) =
            before.tree.content? (placeOf before.tree.home path))) := by
  cases hstep with
  | note notices => exact .inl ⟨rfl, rfl⟩
  | files hfiles hkeeps => exact .inl ⟨rfl, (hkeeps hfiled.named).others _ hfiled.other⟩
  | @saved settings _ hedit hsave =>
    have hbacking : (before.withSettings settings).store.backing = .file path := hfiled.backing
    have hsettings : after.settings = settings := settings_of_save hsave
    rcases writes_of_save hbacking hsave with ⟨-, ⟨-, hwrites⟩ | ⟨⟨failure, hfails⟩, -⟩⟩
    · refine .inr ⟨hsettings ▸ hedit, .inl ?_⟩
      rw [hsettings, hwrites.content]
      exact if_pos rfl
    · cases hfails
  | @unsaved settings _ _ hedit hreason hsave =>
    have hbacking : (before.withSettings settings).store.backing = .file path := hfiled.backing
    have hsettings : after.settings = settings := settings_of_save hsave
    rcases writes_of_save hbacking hsave with ⟨-, ⟨hsaved, -⟩ | ⟨-, hkeeps⟩⟩
    · cases hsaved
    · exact .inr ⟨hsettings ▸ hedit, .inr ⟨hreason, hkeeps.content _⟩⟩

end Filed

end UxmlBindings.Workspace
