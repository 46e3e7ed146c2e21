import UxmlBindings.Proofs.Workspace.Registered
import UxmlBindings.Proofs.Workspace.Synced

/-!
# Settings that are stranded in memory

A file that is taken into a project while the settings cannot be saved has its setting in memory
only. Taking it in again finds the setting there, succeeds and saves nothing. This is the only way in
which a file that was taken in is missing from the settings file, as long as the path still leads to
that file: every save writes all settings, and nothing else changes the file.
-/

namespace UxmlBindings.Workspace

open Binding Files FileTree Settings

/-- There is a setting for a key in the content of a settings file. -/
def HoldsKey (key : String) (content : Option Content) : Prop :=
  ∃ text settings, content = some (.text text) ∧ Settings.ofText? text = some settings ∧
    key ∈ settings.keys

/-- An operation keeps to what is recorded of bindings. Others leave what stands at the place of a path
alone; they may make the place unreachable. -/
def Event.Spares (path : Pathname) : Event → Workspace → Prop
  | .own operation, _ => operation.KeepsRecords
  | .outside tree, workspace =>
    tree.home = workspace.tree.home ∧
      tree.content? (placeOf workspace.tree.home path) =
        workspace.tree.content? (placeOf workspace.tree.home path)

/-- In a run, an operation has brought a key into memory and could not save it, and the settings file,
which has no setting for it, has not changed since. -/
def Stranded (path : Pathname) (key : String) (events : List Event) (start last : Workspace) : Prop :=
  ∃ before operation after, events = before ++ .own operation :: after ∧
    key ∉ (afterEvents before start).settings.keys ∧
    key ∈ (operation.after (afterEvents before start)).settings.keys ∧
    operation.saveFails (afterEvents before start) = true ∧
    ¬ HoldsKey key ((afterEvents before start).tree.content? (placeOf start.tree.home path)) ∧
    last.tree.content? (placeOf start.tree.home path) =
      (afterEvents before start).tree.content? (placeOf start.tree.home path)

section Steps

variable {path : Pathname} {place : Location} {workspace before after : Workspace} {key : String}
  {edits : Settings → Settings → Prop} {reason : Prop}

/-- Settings that were saved have a setting for every key. -/
theorem holdsKey_toText {settings : Settings} (hkey : key ∈ settings.keys) :
    HoldsKey key (some (.text settings.toText)) :=
  ⟨_, settings, rfl, settings.ofText?_toText, hkey⟩

/-- What can be said of a key after some steps from a workspace: the settings file is as before, and
either the settings are too or there is a reason for the difference; or the file has a setting for
the key; or there is none in memory, and no further edit brings one in. -/
def Tracked (edits : Settings → Settings → Prop) (reason : Prop) (place : Location) (key : String)
    (before after : Workspace) : Prop :=
  (after.tree.content? place = before.tree.content? place ∧
      (after.settings = before.settings ∨ reason)) ∨
    HoldsKey key (after.tree.content? place) ∨
    (key ∉ after.settings.keys ∧
      ∀ settings, edits after.settings settings → key ∉ settings.keys)

/-- Steps keep track of a key if the edits bring in no further keys when they are repeated. -/
theorem Course.tracked (hcourse : Course edits reason before after) (hedits : KeepsNamed edits)
    (hrepeated : ∀ first second third, edits first second → edits second third →
      ∀ key ∈ third.keys, key ∈ second.keys)
    (hfiled : Filed path before) (key : String) :
    Filed path after ∧ after.tree.home = before.tree.home ∧
      Tracked edits reason (placeOf before.tree.home path) key before after := by
  induction hcourse with
  | refl => exact ⟨hfiled, rfl, .inl ⟨rfl, .inl rfl⟩⟩
  | @tail middle last _ hstep ih =>
    obtain ⟨hmiddle, hhome, htracked⟩ := ih
    obtain ⟨hlast, hhome'⟩ := hstep.filed hedits hmiddle
    refine ⟨hlast, hhome'.trans hhome, ?_⟩
    have hfile := hstep.settingsFile hmiddle
    rw [hhome] at hfile
    unfold Tracked at htracked ⊢
    -- The step changes neither settings nor file, saves the settings, or cannot save them.
    rcases hfile with ⟨hsettings, hcontent⟩ | ⟨hedit, hsaved | ⟨hreason, hcontent⟩⟩
    · rw [hsettings, hcontent]
      exact htracked
    · rw [hsaved]
      by_cases hkey : key ∈ last.settings.keys
      · exact .inr (.inl (holdsKey_toText hkey))
      · exact .inr (.inr ⟨hkey, fun settings hagain hmem =>
          hkey (hrepeated _ _ _ hedit hagain key hmem)⟩)
    · rw [hcontent]
      rcases htracked with ⟨hsame, -⟩ | hholds | ⟨hkey, hno⟩
      · exact .inl ⟨hsame, .inr hreason⟩
      · exact .inr (.inl hholds)
      · exact .inr (.inr ⟨hno _ hedit, fun settings hagain hmem =>
          hno _ hedit (hrepeated _ _ _ hedit hagain key hmem)⟩)

/-- When it is repeated, an edit of an operation brings in no further keys. -/
theorem mem_keys_of_edits_twice {operation : Operation} {start first second third : Settings}
    (hfirst : operation.Edits start first second) (hsecond : operation.Edits start second third)
    (hmem : key ∈ third.keys) : key ∈ second.keys := by
  cases operation with
  | enable path | disable path | change path edit =>
    obtain ⟨rfl, hsame⟩ := hfirst
    obtain ⟨rfl, hsame'⟩ := hsecond
    exact hsame ▸ hsame' ▸ hmem
  | _ => exact hsecond.keys ▸ hmem

/-- After an event, a key that is in memory is in the settings file, or the file is as before the
event. If the key was not in memory before, the event is an operation that could not save it. -/
theorem Event.holdsKey_or {event : Event} (hspares : event.Spares path workspace)
    (hfiled : Filed path workspace) :
    Filed path (event.after workspace) ∧
      (event.after workspace).tree.home = workspace.tree.home ∧
      ∀ key ∈ (event.after workspace).settings.keys,
        HoldsKey key ((event.after workspace).tree.content? (placeOf workspace.tree.home path)) ∨
          ((event.after workspace).tree.content? (placeOf workspace.tree.home path) =
              workspace.tree.content? (placeOf workspace.tree.home path) ∧
            (key ∈ workspace.settings.keys ∨
              ∃ operation, event = .own operation ∧ operation.saveFails workspace = true)) := by
  cases event with
  | outside tree =>
    obtain ⟨hhome, hcontent⟩ := hspares
    exact ⟨⟨hfiled.backing, hhome ▸ hfiled.other, hfiled.named⟩, hhome,
      fun key hmem => .inr ⟨hcontent, .inl hmem⟩⟩
  | own operation =>
    have htracked (key : String) := (operation.course workspace).tracked
      (keepsNamed_edits hspares workspace.settings)
      (fun _ _ _ hfirst hsecond _ => mem_keys_of_edits_twice hfirst hsecond) hfiled key
    refine ⟨(htracked "").1, (htracked "").2.1, fun key hmem => ?_⟩
    rcases (htracked key).2.2 with ⟨hcontent, hsettings | hfails⟩ | hholds | ⟨habsent, -⟩
    · exact .inr ⟨hcontent, .inl (hsettings ▸ hmem)⟩
    · exact .inr ⟨hcontent, .inr ⟨operation, rfl, hfails⟩⟩
    · exact .inl hholds
    · exact absurd hmem habsent

end Steps

section Runs

variable {path : Pathname} {start last : Workspace} {key : String} {events : List Event}

/-- What is stranded remains so while the settings file does not change. -/
theorem Stranded.concat (hstranded : Stranded path key events start (afterEvents events start))
    (event : Event)
    (hcontent : last.tree.content? (placeOf start.tree.home path) =
      (afterEvents events start).tree.content? (placeOf start.tree.home path)) :
    Stranded path key (events ++ [event]) start last := by
  obtain ⟨before, operation, after, rfl, hbefore, hafter, hfails, hholds, hsame⟩ := hstranded
  exact ⟨before, operation, after ++ [event], by simp, hbefore, hafter, hfails, hholds,
    hcontent.trans hsame⟩

/-- In a run, a key that is in memory is in the settings file, or it is stranded. -/
theorem holdsKey_or_stranded (hfiled : Filed path start)
    (hstart : ∀ key ∈ start.settings.keys,
      HoldsKey key (start.tree.content? (placeOf start.tree.home path)))
    (hrun : Throughout (Event.Spares path) events start) :
    Filed path (afterEvents events start) ∧
      (afterEvents events start).tree.home = start.tree.home ∧
      ∀ key ∈ (afterEvents events start).settings.keys,
        HoldsKey key ((afterEvents events start).tree.content? (placeOf start.tree.home path)) ∨
          Stranded path key events start (afterEvents events start) := by
  induction events using List.reverseRecOn with
  | nil => exact ⟨hfiled, rfl, fun key hmem => .inl (hstart key hmem)⟩
  | append_singleton earlier event ih =>
    rw [throughout_append] at hrun
    obtain ⟨hearlier, hevent, -⟩ := hrun
    obtain ⟨hbefore, hhome, hkeys⟩ := ih hearlier
    obtain ⟨hlater, hhome', hholds⟩ := Event.holdsKey_or hevent hbefore
    rw [hhome] at hholds
    rw [afterEvents_concat]
    refine ⟨hlater, hhome'.trans hhome, fun key hmem => ?_⟩
    rcases hholds key hmem with hheld | ⟨hcontent, hnew⟩
    · exact .inl hheld
    by_cases hold : key ∈ (afterEvents earlier start).settings.keys
    -- A file that has not changed has the key if it had it before, and the key stays stranded.
    · rcases hkeys key hold with hheld | hstranded
      · exact .inl (hcontent ▸ hheld)
      · exact .inr (hstranded.concat event hcontent)
    · by_cases hheld : HoldsKey key ((afterEvents earlier start).tree.content?
          (placeOf start.tree.home path))
      · exact .inl (hcontent ▸ hheld)
      · obtain ⟨operation, rfl, hfails⟩ := hnew.resolve_left hold
        exact .inr ⟨earlier, operation, [], rfl, hold, hmem, hfails, hheld, hcontent⟩

/-- What is stranded after an operation that has saved was so before. -/
theorem Stranded.of_concat {operation : Operation}
    (hsaves : operation.saveFails (afterEvents events start) = false)
    (hstranded : Stranded path key (events ++ [.own operation]) start last) :
    Stranded path key events start last := by
  obtain ⟨before, other, after, hsplit, hbefore, hafter, hfails, hheld, hsame⟩ := hstranded
  -- The operation that stranded the key has failed to save, so it is not the last one.
  rcases List.eq_nil_or_concat after with rfl | ⟨rest, event, rfl⟩
  · obtain ⟨rfl, hevent⟩ := List.append_inj' hsplit rfl
    obtain rfl : operation = other := by simpa using hevent
    rw [hsaves] at hfails
    cases hfails
  · rw [List.concat_eq_append, ← List.cons_append, ← List.append_assoc] at hsplit
    obtain ⟨rfl, -⟩ := List.append_inj' hsplit rfl
    exact ⟨before, other, rest, rfl, hbefore, hafter, hfails, hheld, hsame⟩

end Runs

section Files

variable {tree : FileTree} {path : Pathname} {store : Store} {key : String}

/-- The settings that were opened have a setting for a key if there is one in the file. -/
theorem holdsKey_of_load (hload : Store.load tree path = .ok store) (hkey : key ∈ store.settings.keys) :
    tree.locationOf path = .ok (placeOf tree.home path) ∧
      HoldsKey key (tree.content? (placeOf tree.home path)) := by
  obtain ⟨-, ⟨-, hempty⟩ | ⟨text, hread, hsettings⟩⟩ := load_eq_ok hload
  · rw [hempty] at hkey
    cases hkey
  · obtain ⟨hpath, hcontent⟩ := content?_of_readText hread
    exact ⟨hpath, text, store.settings, hcontent, hsettings, hkey⟩

/-- A setting in a file that can be reached is opened. -/
theorem load_of_holdsKey (hpath : tree.locationOf path = .ok (placeOf tree.home path))
    (hheld : HoldsKey key (tree.content? (placeOf tree.home path))) :
    ∃ store, Store.load tree path = .ok store ∧ key ∈ store.settings.keys := by
  obtain ⟨text, settings, hcontent, hsettings, hkey⟩ := hheld
  have hread : tree.readText path = .ok text := (readText_eq_ok_iff hpath).2 hcontent
  refine ⟨{ settings, backing := .file path }, ?_, hkey⟩
  rw [Store.load, hread]
  dsimp only
  rw [hsettings]

end Files

/-- Suppose the store of a project was opened from a file that is not named like a generated one, and
what is recorded of bindings is named like bindings. After any run of operations in which others
leave that file alone, take a file into the project with success. Opening the settings file then
yields a setting for it exactly if the file can be reached and the setting is not stranded in memory
by an operation that could not save it. -/
theorem enable_saved_iff (start : Workspace) (events : List Event) (path : Pathname) (asset : String)
    {setting : AssetOptions} {later : Workspace}
    (hopen : Store.load start.tree path = .ok start.store)
    (hother : namedOutput (placeOf start.tree.home path) = false) (hnamed : RecordsNamed start)
    (hrun : Throughout (Event.Spares path) events start)
    (henable : (enable asset).execute (afterEvents events start) = (.ok setting, later)) :
    (∃ store, Store.load later.tree path = .ok store ∧
        (store.settings.find? (keyOf asset)).isSome = true) ↔
      later.tree.locationOf path = .ok (placeOf start.tree.home path) ∧
        ¬ Stranded path (keyOf asset) events start later := by
  simp only [isSome_find?_iff]
  have hlater : afterEvents (events ++ [.own (.enable asset)]) start = later := by
    rw [afterEvents_concat, Event.after, Operation.after, henable]
  have hsaves : (Operation.enable asset).saveFails (afterEvents events start) = false := by
    rw [Operation.saveFails, Operation.outcome, henable]
    rfl
  have hfiled : Filed path start := ⟨(load_eq_ok hopen).1, hother, hnamed⟩
  have hstart (key : String) (hkey : key ∈ start.settings.keys) :
      HoldsKey key (start.tree.content? (placeOf start.tree.home path)) :=
    (holdsKey_of_load hopen hkey).2
  have hwhole : Throughout (Event.Spares path) (events ++ [.own (.enable asset)]) start :=
    throughout_append.2 ⟨hrun, trivial, trivial⟩
  obtain ⟨-, hhome, hkeys⟩ := holdsKey_or_stranded hfiled hstart hwhole
  rw [hlater] at hhome hkeys
  have hmem : keyOf asset ∈ later.settings.keys := by
    have hkey := mem_keys_enable (afterEvents events start) asset
    rw [henable] at hkey
    exact hkey
  constructor
  · rintro ⟨store, hload, hkey⟩
    obtain ⟨hpath, hheld⟩ := holdsKey_of_load hload hkey
    rw [hhome] at hpath hheld
    refine ⟨hpath, ?_⟩
    rintro ⟨before, operation, after, -, -, -, -, hlost, hsame⟩
    exact hlost (hsame ▸ hheld)
  · rintro ⟨hpath, hsafe⟩
    rw [← hhome] at hpath
    apply load_of_holdsKey hpath
    rw [hhome]
    exact (hkeys _ hmem).resolve_right fun hstranded => hsafe (hstranded.of_concat hsaves)

/-- A project without files, whose settings are kept in the standard file. -/
def bareProject : Workspace where
  tree := {}
  store := { settings := {}, backing := .file CommandLine.standardSettingsFile }
  root := ⟨""⟩

/-- A file takes the place of the directory of the settings while a markup file is taken into the
project, and is removed again. -/
def blockedRun : List Event :=
  [.outside { entries := .ofList [(["ProjectSettings"], Entry.file (.text "blocked"))] },
   .own (.enable "Menu.uxml"),
   .outside {}]

/-- Taking the file in again succeeds, and it is missing from the settings that are opened. -/
theorem execute_enable_blocked :
    ∃ later, (enable "Menu.uxml").execute (afterEvents blockedRun bareProject) =
        (.ok { path := "Menu.uxml", outputDirectory := "Markbind" }, later) ∧
      Store.load later.tree CommandLine.standardSettingsFile = .ok bareProject.store := by
  have hrun : ((enable "Menu.uxml").execute (afterEvents blockedRun bareProject)).1 =
        .ok { path := "Menu.uxml", outputDirectory := "Markbind" } ∧
      Store.load ((enable "Menu.uxml").execute (afterEvents blockedRun bareProject)).2.tree
        CommandLine.standardSettingsFile = .ok bareProject.store := by
    decide +kernel
  exact exists_run hrun.1 hrun.2

theorem enable_forgotten_blocked :
    ∃ setting later, (enable "Menu.uxml").execute (afterEvents blockedRun bareProject) =
        (.ok setting, later) ∧
      ∀ store, Store.load later.tree CommandLine.standardSettingsFile = .ok store →
        store.settings.find? (keyOf "Menu.uxml") = none := by
  obtain ⟨later, henable, hload⟩ := execute_enable_blocked
  refine ⟨_, later, henable, fun store hstore => ?_⟩
  obtain rfl := Except.ok.inj (hload.symm.trans hstore)
  rfl

theorem throughout_blockedRun :
    Throughout (Event.Spares CommandLine.standardSettingsFile) blockedRun bareProject := by
  refine ⟨⟨rfl, ?_⟩, trivial, ⟨?_, ?_⟩, trivial⟩
  all_goals decide +kernel

theorem enable_saved_iff_blocked :
    Store.load bareProject.tree CommandLine.standardSettingsFile = .ok bareProject.store ∧
      namedOutput (placeOf bareProject.tree.home CommandLine.standardSettingsFile) = false ∧
      RecordsNamed bareProject ∧
      Throughout (Event.Spares CommandLine.standardSettingsFile) blockedRun bareProject ∧
      ∃ later, (enable "Menu.uxml").execute (afterEvents blockedRun bareProject) =
          (.ok { path := "Menu.uxml", outputDirectory := "Markbind" }, later) ∧
        ((∃ store, Store.load later.tree CommandLine.standardSettingsFile = .ok store ∧
            (store.settings.find? (keyOf "Menu.uxml")).isSome = true) ↔
          later.tree.locationOf CommandLine.standardSettingsFile =
              .ok (placeOf bareProject.tree.home CommandLine.standardSettingsFile) ∧
            ¬ Stranded CommandLine.standardSettingsFile (keyOf "Menu.uxml") blockedRun bareProject
              later) := by
  have hopen : Store.load bareProject.tree CommandLine.standardSettingsFile =
      .ok bareProject.store := by
    decide +kernel
  have hother : namedOutput (placeOf bareProject.tree.home CommandLine.standardSettingsFile) =
      false := by
    decide +kernel
  have hnamed : RecordsNamed bareProject := nofun
  obtain ⟨later, henable, -⟩ := execute_enable_blocked
  exact ⟨hopen, hother, hnamed, throughout_blockedRun, later, henable,
    enable_saved_iff bareProject blockedRun _ _ hopen hother hnamed throughout_blockedRun henable⟩

end UxmlBindings.Workspace
