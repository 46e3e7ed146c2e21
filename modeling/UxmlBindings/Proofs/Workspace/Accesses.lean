import UxmlBindings.Proofs.Settings.Assignments
import UxmlBindings.Proofs.Workspace.Steps

/-!
# Accesses to settings

The settings of files are accessed through their store, and by operations of the project that take
files into it and out of it. Whatever sequence of accesses settings with different paths go through,
the paths stay different, and every access treats the settings as a map: `accesses_actOnMap` says what
each of them assigns to which path, and what it yields. Operations save the settings, which can fail;
this changes what they yield but not what is assigned.
-/

namespace UxmlBindings.Workspace

open Settings

/-- An access to the settings of files: to the store itself, where a path is taken as it is, or by an
operation of the project, which looks for its key. -/
inductive Access where
  | get (path : String)
  | add (setting : AssetOptions)
  | remove (path : String)
  | alter (path : String) (edit : AssetOptions → AssetOptions)
  | enable (path : String)
  | disable (path : String)
  | change (path : String) (edit : AssetOptions → AssetOptions)

namespace Access

/-- What comes of an access, with the workspace after it. An alteration of the store yields the setting
that it finds. -/
def run : Access → Workspace → Except Failure (Option AssetOptions) × Workspace
  | .get path, workspace => (.ok (workspace.settings.find? path), workspace)
  | .add setting, workspace => (.ok none, workspace.withSettings (workspace.settings.add setting))
  | .remove path, workspace =>
    let (removed, rest) := workspace.settings.take path
    (.ok removed, workspace.withSettings rest)
  | .alter path edit, workspace =>
    (.ok (workspace.settings.find? path),
      workspace.withSettings (workspace.settings.change path edit))
  | .enable path, workspace =>
    let (outcome, later) := (Workspace.enable path).execute workspace
    (outcome.map some, later)
  | .disable path, workspace => (Workspace.disable path).execute workspace
  | .change path edit, workspace =>
    let (outcome, later) := (Workspace.change path edit).execute workspace
    (outcome.map fun () => none, later)

/-- The workspace after an access. -/
def after (access : Access) (workspace : Workspace) : Workspace :=
  (access.run workspace).2

/-- The path that an access concerns. -/
def path : Access → String
  | .get path | .remove path | .alter path _ => path
  | .add setting => setting.path
  | .enable path | .disable path | .change path _ => keyOf path

/-- The setting that the path of an access has after it. -/
def leaves (settings : Settings) : Access → Option AssetOptions
  | .get path => settings.find? path
  | .add setting => some setting
  | .remove _ | .disable _ => none
  | .alter path edit => (settings.find? path).map edit
  | .enable path =>
    some ((settings.find? (keyOf path)).getD (.initial (keyOf path) settings.project))
  | .change path edit => (settings.find? (keyOf path)).map edit

/-- What an access yields, unless it cannot save the settings. -/
def yields (settings : Settings) : Access → Except Failure (Option AssetOptions)
  | .get path | .remove path | .alter path _ => .ok (settings.find? path)
  | .add _ => .ok none
  | .enable path =>
    .ok (some ((settings.find? (keyOf path)).getD (.initial (keyOf path) settings.project)))
  | .disable path => .ok (settings.find? (keyOf path))
  | .change path _ =>
    match settings.find? (keyOf path) with
    | none => .error (.notConfigured (keyOf path))
    | some _ => .ok none

/-- Whether an access is an operation of the project, which saves the settings. -/
def isOperation : Access → Bool
  | .enable _ | .disable _ | .change _ _ => true
  | _ => false

/-- Whether an access takes the setting for a key away. -/
def takes (key : String) : Access → Bool
  | .remove path => path == key
  | .disable path => keyOf path == key
  | _ => false

/-- A change keeps the path of the setting that it changes. -/
def KeepsPath : Access → Prop
  | .alter path edit => ∀ setting, setting.path = path → (edit setting).path = path
  | .change path edit => ∀ setting, setting.path = keyOf path → (edit setting).path = keyOf path
  | _ => True

/-- An access to settings with different paths acts on them as on a map with ordered keys. It assigns a
setting, or none, to its own path, and yields what the map holds. Only an operation can fail to save
the settings, and only if they are not kept in memory. To take a file into the project that is there
already changes nothing at all. -/
structure ActsOnMap (access : Access) (workspace : Workspace) : Prop where
  assigned : Assigned workspace.settings (access.after workspace).settings access.path
    (access.leaves workspace.settings)
  outcome : (access.run workspace).1 = access.yields workspace.settings ∨
    access.isOperation = true ∧ ¬ workspace.InMemory ∧
      ∃ fault, (access.run workspace).1 = .error (.settings fault)
  registered : ∀ path setting, access = .enable path →
    workspace.settings.find? (keyOf path) = some setting →
      access.run workspace = (.ok (some setting), workspace)

end Access

/-- The workspace after a sequence of accesses. -/
def afterAccesses (accesses : List Access) (workspace : Workspace) : Workspace :=
  accesses.foldl (fun workspace access => access.after workspace) workspace

/-- Whether none of some accesses takes the setting for a key away. -/
def spares (accesses : List Access) (key : String) : Bool :=
  accesses.all fun access => !access.takes key

section Operations

variable (workspace : Workspace) (path : String)

/-- A save succeeds, or fails on the file in which the settings are kept. -/
theorem save_outcome :
    (save.execute workspace).1 = .ok () ∨
      ¬ workspace.InMemory ∧ ∃ fault, (save.execute workspace).1 = .error (.settings fault) := by
  by_cases hmemory : workspace.InMemory
  · obtain ⟨saves, hsave⟩ := execute_save_of_inMemory hmemory
    exact .inl (by rw [hsave])
  · rw [execute_save]
    rcases workspace.store.save workspace.tree with ⟨fault | ⟨⟩, store, tree⟩
    · exact .inr ⟨hmemory, fault, rfl⟩
    · exact .inl rfl

/-- To take a file into the project that is there already changes nothing. -/
theorem execute_enable_of_registered {setting : AssetOptions}
    (hfind : workspace.settings.find? (keyOf path) = some setting) :
    (enable path).execute workspace = (.ok setting, workspace) := by
  obtain ⟨notices, hrun⟩ := execute_enable workspace path
  rw [hrun, hfind]

/-- A save leaves the settings that it is given. -/
theorem settings_save (settings : Settings) :
    (save.execute (workspace.withSettings settings)).2.settings = settings :=
  settings_of_save rfl

/-- A file is taken into the project with the setting it has, or else with the initial one. -/
theorem assigned_enable :
    Assigned workspace.settings ((enable path).execute workspace).2.settings (keyOf path)
      (some ((workspace.settings.find? (keyOf path)).getD (.initial (keyOf path) workspace.project))) := by
  cases hfind : workspace.settings.find? (keyOf path) with
  | some setting =>
    rw [execute_enable_of_registered workspace path hfind, Option.getD_some, ← hfind]
    exact assigned_self workspace.settings (keyOf path)
  | none =>
    obtain ⟨notices, hrun⟩ := execute_enable workspace path
    rw [hrun, hfind]
    let setting := AssetOptions.initial (keyOf path) workspace.project
    have hsettings := settings_save workspace (workspace.settings.add setting)
    exact hsettings ▸ assigned_add workspace.settings setting

/-- Taking a file out of the project removes the setting for its key. -/
theorem settings_disable :
    ((disable path).execute workspace).2.settings = workspace.settings.remove (keyOf path) := by
  obtain ⟨notices, hrun⟩ := execute_disable workspace path
  rw [hrun]
  cases hfind : workspace.settings.find? (keyOf path) with
  | none => exact (remove_of_find?_eq_none hfind).symm
  | some setting => exact settings_save workspace _

/-- A change of a file's setting changes the setting for its key. -/
theorem settings_change (edit : AssetOptions → AssetOptions) :
    ((change path edit).execute workspace).2.settings =
      workspace.settings.change (keyOf path) edit := by
  rw [execute_change]
  cases hfind : workspace.settings.find? (keyOf path) with
  | none => exact (change_of_find?_eq_none hfind).symm
  | some setting => exact settings_save workspace _

/-- What comes of a save, with a value to be yielded after it. -/
theorem outcome_save_map (settings : Settings) (value : Option AssetOptions) :
    ((save.execute (workspace.withSettings settings)).1.map fun () => value) = .ok value ∨
      ¬ workspace.InMemory ∧ ∃ fault,
        ((save.execute (workspace.withSettings settings)).1.map fun () => value) =
          .error (.settings fault) := by
  rcases save_outcome (workspace.withSettings settings) with hok | ⟨hfile, fault, herror⟩
  · exact .inl (by rw [hok]; rfl)
  · exact .inr ⟨hfile, fault, by rw [herror]; rfl⟩

end Operations

namespace Access

/-- An access that keeps paths assigns to its own path what it is said to leave there. -/
theorem assigned {access : Access} {workspace : Workspace}
    (hdistinct : workspace.settings.keys.Nodup) (hkeeps : access.KeepsPath) :
    Assigned workspace.settings (access.after workspace).settings access.path
      (access.leaves workspace.settings) := by
  cases access with
  | get path => exact assigned_self workspace.settings path
  | add setting => exact assigned_add workspace.settings setting
  | remove path =>
    change Assigned workspace.settings (workspace.settings.take path).2 path none
    rw [take_eq]
    exact assigned_remove hdistinct path
  | alter path edit => exact assigned_change workspace.settings hkeeps
  | enable path => exact assigned_enable workspace path
  | disable path =>
    change Assigned _ ((Workspace.disable path).execute workspace).2.settings _ _
    rw [settings_disable]
    exact assigned_remove hdistinct (keyOf path)
  | change path edit =>
    change Assigned _ ((Workspace.change path edit).execute workspace).2.settings _ _
    rw [settings_change]
    exact assigned_change workspace.settings hkeeps

/-- An access yields what it is said to, unless the settings cannot be saved. -/
theorem outcome (access : Access) (workspace : Workspace) :
    (access.run workspace).1 = access.yields workspace.settings ∨
      access.isOperation = true ∧ ¬ workspace.InMemory ∧
        ∃ fault, (access.run workspace).1 = .error (.settings fault) := by
  cases access with
  | get path | add setting | alter path edit => exact .inl rfl
  | remove path =>
    left
    change Except.ok (workspace.settings.take path).1 = .ok (workspace.settings.find? path)
    rw [take_eq]
  | enable path =>
    obtain ⟨notices, hrun⟩ := execute_enable workspace path
    rw [run, yields, hrun]
    cases workspace.settings.find? (keyOf path) with
    | some setting => exact .inl rfl
    | none =>
      have hmap (saved : Except Failure Unit) (setting : AssetOptions) :
          (saved.map fun () => setting).map some = saved.map fun () => some setting := by
        cases saved <;> rfl
      dsimp only
      rw [hmap]
      exact (outcome_save_map workspace _ _).imp_right fun hfailed => ⟨rfl, hfailed⟩
  | disable path =>
    obtain ⟨notices, hrun⟩ := execute_disable workspace path
    rw [run, yields, hrun]
    cases workspace.settings.find? (keyOf path) with
    | none => exact .inl rfl
    | some setting => exact (outcome_save_map workspace _ _).imp_right fun hfailed => ⟨rfl, hfailed⟩
  | change path edit =>
    rw [run, yields, execute_change]
    cases workspace.settings.find? (keyOf path) with
    | none => exact .inl rfl
    | some setting => exact (outcome_save_map workspace _ _).imp_right fun hfailed => ⟨rfl, hfailed⟩

/-- A key that is left without a setting is taken away. -/
theorem takes_of_leaves_eq_none {access : Access} {settings : Settings}
    (hmem : access.path ∈ settings.keys) (hnone : access.leaves settings = none) :
    access.takes access.path = true := by
  have hsome : (settings.find? access.path).isSome := isSome_find?_iff.2 hmem
  cases access with
  | add setting | enable path => cases hnone
  | remove path | disable path => exact beq_self_eq_true _
  | get path => exact absurd hnone (Option.isSome_iff_ne_none.1 hsome)
  | alter path edit | change path edit =>
    exact absurd (Option.map_eq_none_iff.1 hnone) (Option.isSome_iff_ne_none.1 hsome)

/-- An access that keeps paths acts on settings with different paths as on a map. -/
theorem actsOnMap {access : Access} {workspace : Workspace}
    (hdistinct : workspace.settings.keys.Nodup) (hkeeps : access.KeepsPath) :
    access.ActsOnMap workspace where
  assigned := assigned hdistinct hkeeps
  outcome := outcome access workspace
  registered := by
    rintro path setting rfl hfind
    rw [run, execute_enable_of_registered workspace path hfind]
    rfl

end Access

section Runs

variable {accesses : List Access} {workspace : Workspace}

/-- Different paths stay different through any accesses. -/
theorem nodup_afterAccesses (hdistinct : workspace.settings.keys.Nodup)
    (hkeeps : ∀ access ∈ accesses, access.KeepsPath) :
    (afterAccesses accesses workspace).settings.keys.Nodup := by
  induction accesses generalizing workspace with
  | nil => exact hdistinct
  | cons access rest ih =>
    rw [List.forall_mem_cons] at hkeeps
    exact ih ((Access.assigned hdistinct hkeeps.1).distinct hdistinct) hkeeps.2

/-- Keys that no access takes away stay in their order. -/
theorem sublist_keys_afterAccesses (hdistinct : workspace.settings.keys.Nodup)
    (hkeeps : ∀ access ∈ accesses, access.KeepsPath) :
    (workspace.settings.keys.filter (spares accesses)).Sublist
      (afterAccesses accesses workspace).settings.keys := by
  -- The keys that the whole sequence spares are sifted twice: once for the first access and, among
  -- those that it leaves, once for the rest.
  induction accesses generalizing workspace with
  | nil => exact List.filter_sublist
  | cons access rest ih =>
    rw [List.forall_mem_cons] at hkeeps
    have hassigned := Access.assigned hdistinct hkeeps.1
    have hstep : (workspace.settings.keys.filter fun key => !access.takes key).Sublist
        (access.after workspace).settings.keys :=
      hassigned.sublist fun hmem hnone => by
        rw [Access.takes_of_leaves_eq_none hmem hnone]
        rfl
    have hsplit : workspace.settings.keys.filter (spares (access :: rest)) =
        (workspace.settings.keys.filter fun key => !access.takes key).filter (spares rest) := by
      rw [List.filter_filter]
      exact List.filter_congr fun key _ => Bool.and_comm ..
    rw [hsplit]
    exact (hstep.filter _).trans (ih (hassigned.distinct hdistinct) hkeeps.2)

/-- Settings with different paths are a map for every sequence of accesses that keep paths. Between some
of them and the others the paths are different, the access that comes next acts on the settings as on a
map, and the keys that none of the others takes away keep their order to the end. -/
theorem accesses_actOnMap (earlier later : List Access) (workspace : Workspace)
    (hdistinct : workspace.settings.keys.Nodup)
    (hkeeps : ∀ access ∈ earlier ++ later, access.KeepsPath) :
    (afterAccesses earlier workspace).settings.keys.Nodup ∧
      (∀ access ∈ later.head?, access.ActsOnMap (afterAccesses earlier workspace)) ∧
      ((afterAccesses earlier workspace).settings.keys.filter (spares later)).Sublist
        (afterAccesses (earlier ++ later) workspace).settings.keys := by
  rw [List.forall_mem_append] at hkeeps
  have hpoint := nodup_afterAccesses hdistinct hkeeps.1
  refine ⟨hpoint, ?_, ?_⟩
  · intro access hnext
    exact Access.actsOnMap hpoint (hkeeps.2 access (List.mem_of_mem_head? hnext))
  · have hlast : afterAccesses (earlier ++ later) workspace =
        afterAccesses later (afterAccesses earlier workspace) :=
      List.foldl_append
    rw [hlast]
    exact sublist_keys_afterAccesses hpoint hkeeps.2

/-- A project with settings of two files. -/
def twoFiles : Workspace where
  tree := {}
  store := .inMemory { files := [{ path := "Menu.uxml" }, { path := "Hud.uxml" }] }
  root := ⟨""⟩

/-- Accesses that replace a setting and take a file into the project. -/
def arrivals : List Access :=
  [.add { path := "Menu.uxml", filePrefix := "New" }, .enable "./Popup.uxml"]

/-- Accesses that change a setting and take files out of the project. -/
def departures : List Access :=
  [.alter "Popup.uxml" fun setting => { setting with space := "Ui" },
   .remove "Hud.uxml",
   .disable "Absent.uxml"]

theorem accesses_actOnMap_arrivals_departures :
    twoFiles.settings.keys.Nodup ∧
      (∀ access ∈ arrivals ++ departures, access.KeepsPath) ∧
      (afterAccesses arrivals twoFiles).settings.keys.Nodup ∧
      (∀ access ∈ departures.head?, access.ActsOnMap (afterAccesses arrivals twoFiles)) ∧
      ((afterAccesses arrivals twoFiles).settings.keys.filter (spares departures)).Sublist
        (afterAccesses (arrivals ++ departures) twoFiles).settings.keys ∧
      (afterAccesses arrivals twoFiles).settings.keys = ["Menu.uxml", "Hud.uxml", "Popup.uxml"] ∧
      (afterAccesses (arrivals ++ departures) twoFiles).settings.keys =
        ["Menu.uxml", "Popup.uxml"] := by
  have hdistinct : twoFiles.settings.keys.Nodup := by decide
  have hkeeps : ∀ access ∈ arrivals ++ departures, access.KeepsPath := by
    simp only [arrivals, departures, List.forall_mem_append, List.forall_mem_cons]
    exact ⟨⟨trivial, trivial, List.forall_mem_nil _⟩, fun _ => id, trivial, trivial, List.forall_mem_nil _⟩
  obtain ⟨hpoint, hnext, horder⟩ := accesses_actOnMap arrivals departures twoFiles hdistinct hkeeps
  exact ⟨hdistinct, hkeeps, hpoint, hnext, horder, by decide +kernel, by decide +kernel⟩

end Runs

end UxmlBindings.Workspace
