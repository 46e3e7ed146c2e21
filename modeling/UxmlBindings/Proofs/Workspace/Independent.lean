import Mathlib.Data.List.Pairwise
import UxmlBindings.Proofs.Workspace.Batch
import UxmlBindings.Proofs.Workspace.Effects

/-!
# Independent runs

Two files are independent if their keys differ and no path of the footprint of one is a path of the
footprint of the other, or a parent directory of one. Then a run for one of them leaves a workspace that
resembles the one before, as far as the other file is concerned. So each run has its effect in any order,
and the effects can be exchanged: they are edits at separate places and changes of different settings.

What comes of a run is the same in any order as well, up to the reason why a source cannot be read. This
is so on a plain system. With links, different paths can have one place, and where there is little space
left, it is taken by the run that comes first.
-/

namespace UxmlBindings.Workspace

open Binding Files FileTree Settings

/-- No path of a list is a path of another list or a parent directory of one, nor the other way round. -/
def PathsApart (paths others : List Pathname) : Prop :=
  ∀ path ∈ paths, ∀ other ∈ others,
    ¬ path.components <+: other.components ∧ ¬ other.components <+: path.components

instance (paths others : List Pathname) : Decidable (PathsApart paths others) :=
  inferInstanceAs (Decidable (∀ path ∈ paths, ∀ other ∈ others, _))

/-- Two files have different keys and footprints that are apart. -/
structure Independent (workspace : Workspace) (first second : String) : Prop where
  keys : keyOf first ≠ keyOf second
  footprints : PathsApart (workspace.footprint first) (workspace.footprint second)

section Independence

variable {workspace later after : Workspace} {first second path other : String} {effect : Effect}

theorem Independent.symm (hindependent : workspace.Independent first second) :
    workspace.Independent second first :=
  ⟨hindependent.keys.symm, fun path hpath other hother =>
    (hindependent.footprints other hother path hpath).symm⟩

instance : Std.Symm workspace.Independent :=
  ⟨fun _ _ => Independent.symm⟩

/-- The places of independent files are separate. -/
theorem Independent.separate (hindependent : workspace.Independent first second)
    (hfirst : workspace.Tidy first) (hsecond : workspace.Tidy second) :
    Separate (workspace.places first) (workspace.places second) := by
  intro place hplace other hother
  obtain ⟨path, hpath, rfl⟩ := List.mem_map.1 hplace
  obtain ⟨entry, hentry, rfl⟩ := List.mem_map.1 hother
  have hplain := hfirst.plain path hpath
  have hentryPlain := hsecond.plain entry hentry
  obtain ⟨hapart, hapart'⟩ := hindependent.footprints path hpath entry hentry
  rw [Workspace.locate, Workspace.locate, placeOf_join _ _ hplain, placeOf_join _ _ hentryPlain,
    List.prefix_append_right_inj, List.prefix_append_right_inj]
  exact ⟨fun h => hapart (Pathname.components_isPrefix hplain hentryPlain h),
    fun h => hapart' (Pathname.components_isPrefix hentryPlain hplain h)⟩

/-- What resembles a workspace as far as a file is concerned, does so after a run for an independent
file. -/
theorem Resembles.after_other (hresembles : workspace.Resembles path later)
    (heffect : workspace.HasEffect other effect) (htakes : effect.TakesTo (keyOf other) later after)
    (hkeys : keyOf other ≠ keyOf path)
    (hseparate : Separate (workspace.places path) (workspace.places other)) :
    workspace.Resembles path after := by
  obtain ⟨hproject, hfind⟩ := effect.find?_recordFor later.settings hkeys
  rw [← htakes.settings] at hproject hfind
  have halike := hresembles.tree.applyAll_other heffect.within hseparate
  rw [← htakes.tree] at halike
  refine ⟨htakes.root.trans hresembles.root, htakes.types.trans hresembles.types, htakes.memory,
    hproject.trans hresembles.project, hfind.trans hresembles.setting, halike, ?_⟩
  rcases heffect.entered with hnothing | henters
  · have htree := htakes.tree
    rw [hnothing, applyAll_nil] at htree
    rw [htree]
    exact hresembles.entered
  · exact .inl henters

/-- Settings can be recorded for different keys in any order. -/
theorem Effect.recordFor_comm (effect other : Effect) {key key' : String} (hkeys : key ≠ key')
    (settings : Settings) :
    effect.recordFor key (other.recordFor key' settings) =
      other.recordFor key' (effect.recordFor key settings) := by
  unfold recordFor
  cases effect.record with
  | none => rfl
  | some bindings =>
    cases other.record with
    | none => rfl
    | some bindings' =>
      have hkeeps (bindings : Pathname) (setting : AssetOptions) :
          (withLast bindings setting).path = setting.path :=
        rfl
      exact (change_comm settings hkeys (hkeeps bindings) (hkeeps bindings')).symm

/-- Edits that belong to independent files can be made in any order. -/
theorem HasEffect.applyAll_comm {effect' : Effect} (heffect : workspace.HasEffect first effect)
    (heffect' : workspace.HasEffect second effect')
    (hseparate : Separate (workspace.places first) (workspace.places second)) (tree : FileTree) :
    applyAll effect.edits (applyAll effect'.edits tree) =
      applyAll effect'.edits (applyAll effect.edits tree) :=
  FileTree.applyAll_comm (fun edit hedit other hother =>
    (heffect.within edit hedit).compatible (heffect'.within other hother) hseparate) tree

end Independence

section Unread

variable {workspace : Workspace} {path : String} {setting : AssetOptions}

/-- Why a source cannot be looked up is why nothing is read for it. -/
theorem asset?_of_locationOf {fault : Fault}
    (hfind : workspace.settings.find? (keyOf path) = some setting)
    (hlocation : workspace.tree.locationOf (workspace.sourceOf path) = .error fault) :
    workspace.asset? path = .error (.file (workspace.sourceOf path) fault) := by
  have hread : workspace.tree.readText (workspace.sourceOf path) = .error fault := by
    rw [readText, hlocation]
    rfl
  have hsource : workspace.locate ⟨setting.path⟩ = workspace.sourceOf path := by
    rw [path_of_find? hfind, sourceOf]
  simp only [Workspace.asset?, hfind, hsource, hread]

/-- A run for a source that cannot be read fails for the reason why it cannot be. -/
theorem fails_of_asset? {failure : Failure} (henabled : workspace.project.enabled = true)
    (hasset : workspace.asset? path = .error failure) :
    ((writeBindings path).execute workspace).1 = .error failure := by
  have hbindings : workspace.bindings? path = .error failure := by
    rw [Workspace.bindings?, ready?, if_pos henabled, hasset]
  obtain ⟨notices, hrun⟩ := execute_writeBindings_of_error hbindings
  rw [hrun]

/-- The footprint of a source that cannot be read is its path if nothing was recorded for it. -/
theorem footprint_of_error {failure : Failure} (hasset : workspace.asset? path = .error failure)
    (hfind : workspace.settings.find? (keyOf path) = some setting)
    (hnew : setting.lastBindings = none) : workspace.footprint path = [⟨keyOf path⟩] := by
  simp only [footprint, hfind, outputPaths, hasset, recordedPaths, hnew, path_of_find? hfind,
    List.nil_append]

end Unread

/-- A project with two markup files. The bindings of one of them were written to another directory by an
earlier run. -/
def pairedProject : Workspace where
  tree :=
    { entries := .ofList
        [(["Menu.uxml"], Entry.file (.text "<UXML/>")), (["Hud.uxml"], Entry.file (.text "<UXML/>")),
         (["Old"], Entry.directory), (["Old", "Menu.g.cs"], Entry.file (.text "")),
         (["Old", "Menu.g.cs.meta"], Entry.file (.text ""))] }
  store := .inMemory
    { files :=
        [{ path := "Menu.uxml", lastBindings := some ⟨"Old/Menu.g.cs"⟩ }, { path := "Hud.uxml" }] }
  root := ⟨""⟩

/-- No path of a list is a path of another list or the directory that holds one, nor the other way round.
-/
def PathsUnrelated (paths others : List Pathname) : Prop :=
  ∀ path ∈ paths, ∀ other ∈ others, path.components ≠ other.components ∧
    path.components ≠ other.components.dropLast ∧ path.components.dropLast ≠ other.components

instance (paths others : List Pathname) : Decidable (PathsUnrelated paths others) :=
  inferInstanceAs (Decidable (∀ path ∈ paths, ∀ other ∈ others, _))

/-- A path in a directory that is to be made, with a name that is too long to be looked up. -/
def longSource : String :=
  String.ofList ("Assets/New/".toList ++ List.replicate 256 'a')

/-- A project with a source that cannot be looked up, in the directory of the bindings of another file. -/
def longNameProject : Workspace where
  tree := { entries := .ofList [(["Hud.uxml"], Entry.file (.text "<UXML/>"))] }
  store := .inMemory
    { files := [{ path := "Hud.uxml", outputDirectory := "New" }, { path := longSource }] }
  root := ⟨""⟩

theorem toList_longSource :
    longSource.toList = "Assets/New/".toList ++ List.replicate 256 'a' :=
  String.toList_ofList

theorem pieces_longSource : (Pathname.mk longSource).pieces =
    ["Assets".toList, "New".toList, List.replicate 256 'a'] := by
  rw [Pathname.pieces, toList_longSource]
  decide +kernel

theorem keyOf_longSource : keyOf longSource = longSource := by
  have hkept : ("Assets/New/".toList ++ List.replicate 256 'a').map
      (fun c => if c = '\\' then '/' else c) =
        'A' :: ("ssets/New/".toList ++ List.replicate 256 'a') := by
    decide +kernel
  rw [keyOf, toList_longSource, hkept]
  rfl

theorem isPlain_longSource : (Pathname.mk longSource).isPlain = true := by
  rw [Pathname.isPlain, Pathname.components, Pathname.split, pieces_longSource]
  decide +kernel

theorem locationOf_longSource (tree : FileTree) : tree.locationOf ⟨longSource⟩ =
    tree.follow tree.home ["Assets".toList, "New".toList, List.replicate 256 'a'] := by
  have hrefusal : refusal? ⟨longSource⟩ = none := by
    have hsize : longSource.utf8ByteSize = 267 := by decide +kernel
    have hempty : longSource.isEmpty = false := by decide +kernel
    have hzero : longSource.toList.contains '\x00' = false := by
      rw [toList_longSource]
      decide +kernel
    simp only [refusal?, hempty, hzero, hsize, maxPathBytes]
    rfl
  rw [locationOf, hrefusal, start, Pathname.isAbsolute_of_isPlain isPlain_longSource, pieces_longSource]
  rfl

theorem sourceOf_longSource {workspace : Workspace} (hroot : workspace.root = ⟨""⟩) :
    workspace.sourceOf longSource = ⟨longSource⟩ := by
  rw [sourceOf, keyOf_longSource, locate, hroot, Pathname.join_empty]

theorem asset?_longSource {workspace : Workspace} {fault : Fault} (hroot : workspace.root = ⟨""⟩)
    (hfind : workspace.settings.find? longSource = some { path := longSource })
    (hlocation : workspace.tree.locationOf ⟨longSource⟩ = .error fault) :
    workspace.asset? longSource = .error (.file ⟨longSource⟩ fault) := by
  rw [← sourceOf_longSource hroot] at hlocation ⊢
  rw [← keyOf_longSource] at hfind
  exact asset?_of_locationOf hfind hlocation

theorem find?_longName :
    longNameProject.settings.find? longSource = some { path := longSource } := by
  decide +kernel

theorem asset?_longName :
    longNameProject.asset? longSource = .error (.file ⟨longSource⟩ .notFound) := by
  refine asset?_longSource rfl find?_longName ?_
  rw [locationOf_longSource]
  decide +kernel

theorem footprint_longName : longNameProject.footprint longSource = [⟨longSource⟩] := by
  have hfind := find?_longName
  rw [← keyOf_longSource] at hfind
  rw [footprint_of_error asset?_longName hfind rfl, keyOf_longSource]

theorem tidy_longName : longNameProject.Tidy longSource where
  key := by rw [keyOf_longSource, keyOf_longSource]
  configured := by
    rw [keyOf_longSource, find?_longName]
    rfl
  plain := by
    rw [footprint_longName, List.forall_mem_singleton]
    exact isPlain_longSource

theorem independent_longName : longNameProject.Independent longSource "Hud.uxml" where
  keys := by
    rw [keyOf_longSource]
    decide +kernel
  footprints := by
    have hcomponents : (Pathname.mk longSource).components =
        [.named "Assets", .named "New", .named (String.ofList (List.replicate 256 'a'))] := by
      rw [Pathname.components, Pathname.split, pieces_longSource]
      decide +kernel
    have hother : longNameProject.footprint "Hud.uxml" =
        [⟨"Hud.uxml"⟩, ⟨"Assets/New/Hud.g.cs"⟩] := by
      decide +kernel
    intro path hpath
    rw [footprint_longName, List.mem_singleton] at hpath
    rw [hpath, hcomponents, hother]
    decide +kernel

/-- A project in which the bindings of one file belong two directories below those of another one. -/
def stackedProject : Workspace where
  tree :=
    { entries := .ofList
        [(["Menu.uxml"], Entry.file (.text "<UXML/>")), (["Hud.uxml"], Entry.file (.text "<UXML/>"))] }
  store := .inMemory
    { files := [{ path := "Menu.uxml" }, { path := "Hud.uxml", outputDirectory := "Menu.g.cs/Sub" }] }
  root := ⟨""⟩

/-- The tree with the entries below a location as they are below another one. -/
def mirrored (source copy : Location) (tree : FileTree) : FileTree :=
  let moved := tree.entries.toList.filterMap fun (location, entry) =>
    (namesBelow? source location).map fun names => (copy ++ names, entry)
  { tree with
    entries := (tree.entries.filter fun location _ => !copy.isPrefixOf location).insertMany moved }

/-- A system on which a directory is a link to another one: what is done below one of them is done below
both. -/
def linkedSystem (link target : Location) : System :=
  let follow (path : Pathname) (result : Except Fault Unit × FileTree) :=
    let place := placeOf result.2.home path
    (result.1,
      if link.isPrefixOf place then mirrored link target result.2
      else if target.isPrefixOf place then mirrored target link result.2
      else result.2)
  { makeDirectories := fun tree path => follow path (System.plain.makeDirectories tree path)
    create := fun tree path => follow path (System.plain.create tree path)
    fill := fun tree path text => follow path (System.plain.fill tree path text)
    removeFile := fun tree path => follow path (System.plain.removeFile tree path) }

/-- A system with space for a number of entries. -/
def crampedSystem (space : Nat) : System :=
  { System.plain with
    create := fun tree path =>
      if space ≤ tree.entries.size then (.error .noSpace, tree) else System.plain.create tree path }

/-- A project in which the bindings of one file are written to another directory than those that are
recorded of another file, under the same name. -/
def crossedProject : Workspace where
  tree :=
    { entries := .ofList
        [(["Menu.uxml"], Entry.file (.text "<UXML/>")), (["Hud.uxml"], Entry.file (.text "<UXML/>")),
         (["Assets"], Entry.directory), (["Assets", "Old"], Entry.directory),
         (["Assets", "Markbind"], Entry.directory)] }
  store := .inMemory
    { files :=
        [{ path := "Menu.uxml", outputDirectory := "Old" },
         { path := "Hud.uxml", lastBindings := some ⟨"Assets/Markbind/Menu.g.cs"⟩ }] }
  root := ⟨""⟩

section Batches

variable {workspace later : Workspace} {paths others : List String}

/-- In a batch for independent files every run has its effect, and what comes of it agrees with what comes
of it in the beginning. -/
theorem batch_of_effects {effects : String → Effect}
    (heffects : ∀ path ∈ paths, workspace.HasEffect path (effects path))
    (htidy : ∀ path ∈ paths, workspace.Tidy path)
    (hindependent : paths.Pairwise workspace.Independent)
    (hresembles : ∀ path ∈ paths, workspace.Resembles path later) :
    (batchEnd paths later).tree =
        paths.foldl (fun tree path => applyAll (effects path).edits tree) later.tree ∧
      (batchEnd paths later).settings =
        paths.foldl (fun settings path => (effects path).recordFor (keyOf path) settings)
          later.settings ∧
      ∀ run ∈ batchRuns paths later,
        Agrees (workspace.sourceOf run.path) ((writeBindings run.path).execute workspace).1
          run.outcome := by
  induction paths generalizing later with
  | nil => exact ⟨rfl, rfl, nofun⟩
  | cons path rest ih =>
    rw [List.forall_mem_cons] at heffects htidy hresembles
    obtain ⟨hpath, hrest⟩ := List.pairwise_cons.1 hindependent
    let run : BatchRun := ⟨path, later⟩
    have htakes : (effects path).TakesTo (keyOf path) later run.after := by
      obtain ⟨notices, hafter⟩ := run.after_eq
      have hown := heffects.1.takesTo later hresembles.1
      rw [hafter]
      exact ⟨hown.tree, hown.settings, hown.root, hown.types, hown.memory⟩
    have hstill : ∀ other ∈ rest, workspace.Resembles other run.after := fun other hother =>
      (hresembles.2 other hother).after_other heffects.1 htakes (hpath other hother).keys
        ((hpath other hother).symm.separate (htidy.2 other hother) htidy.1)
    obtain ⟨htree, hsettings, hagree⟩ := ih heffects.2 htidy.2 hrest hstill
    rw [htakes.tree] at htree
    rw [htakes.settings] at hsettings
    refine ⟨htree, hsettings, fun other hother => ?_⟩
    rcases List.mem_cons.1 hother with rfl | hmore
    · exact heffects.1.agrees later hresembles.1
    · exact hagree other hmore

/-- The order of independent files in a batch does not matter: the files and settings at the end are the
same in any order, and what comes of each file agrees with what comes of it alone. -/
theorem batch_perm (hmemory : workspace.InMemory) (hgrounded : workspace.tree.IsGrounded)
    (htidy : ∀ path ∈ paths, workspace.Tidy path)
    (hindependent : paths.Pairwise workspace.Independent) (hperm : paths.Perm others) :
    (batchEnd paths workspace).tree = (batchEnd others workspace).tree ∧
      (batchEnd paths workspace).settings = (batchEnd others workspace).settings ∧
      ∀ run ∈ batchRuns paths workspace ++ batchRuns others workspace,
        Agrees (workspace.sourceOf run.path) ((writeBindings run.path).execute workspace).1
          run.outcome := by
  have hexists (path : String) : ∃ effect, path ∈ paths → workspace.HasEffect path effect := by
    by_cases hpath : path ∈ paths
    · obtain ⟨effect, heffect⟩ := exists_hasEffect hmemory hgrounded (htidy path hpath)
      exact ⟨effect, fun _ => heffect⟩
    · exact ⟨⟨[], none⟩, fun h => absurd h hpath⟩
  choose effects heffects using hexists
  have hothers : ∀ path ∈ others, path ∈ paths := fun path hpath => hperm.mem_iff.2 hpath
  have hindependent' : others.Pairwise workspace.Independent :=
    (hperm.pairwise_iff Independent.symm).1 hindependent
  obtain ⟨htree, hsettings, hagree⟩ := batch_of_effects heffects htidy hindependent
    fun path _ => .refl hmemory path
  obtain ⟨htree', hsettings', hagree'⟩ := batch_of_effects
    (fun path hpath => heffects path (hothers path hpath))
    (fun path hpath => htidy path (hothers path hpath)) hindependent'
    fun path _ => .refl hmemory path
  have hdifferent {first second : String} (hfirst : first ∈ paths) (hsecond : second ∈ paths)
      (hne : first ≠ second) : workspace.Independent first second :=
    hindependent.forall hfirst hsecond hne
  refine ⟨?_, ?_, fun run hrun => (List.mem_append.1 hrun).elim (hagree run) (hagree' run)⟩
  · rw [htree, htree']
    refine hperm.foldl_eq' (fun first hfirst second hsecond tree => ?_) workspace.tree
    by_cases hsame : first = second
    · rw [hsame]
    · exact (heffects second hsecond).applyAll_comm (heffects first hfirst)
        ((hdifferent hsecond hfirst (Ne.symm hsame)).separate (htidy second hsecond)
          (htidy first hfirst)) tree
  · rw [hsettings, hsettings']
    refine hperm.foldl_eq' (fun first hfirst second hsecond settings => ?_) workspace.settings
    by_cases hsame : first = second
    · rw [hsame]
    · exact (effects second).recordFor_comm (effects first)
        (hdifferent hsecond hfirst (Ne.symm hsame)).keys settings

end Batches

end UxmlBindings.Workspace
