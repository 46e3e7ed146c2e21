import Mathlib.Data.List.Forall2
import Mathlib.Data.List.Nodup
import Mathlib.Data.List.Perm.Subperm
import UxmlBindings.Proofs.Settings.Reading
import UxmlBindings.Settings.Store

/-!
# Settings documents with missing members

A settings document may leave out any members: of the document itself, of the settings of the project
and of each setting of a file. The members that are there may stand in any order. A record is then read
with the defaults of its own kind for what is missing, and as it was for the rest.
-/

namespace UxmlBindings

open Binding Files Json Settings

/-- An object that has some of the members of another one, in any order. -/
def Json.Value.IsExcerpt (excerpt full : Value) : Prop :=
  ∃ written members : List (String × Value),
    excerpt = .ofMembers written ∧ full = .ofMembers members ∧ written.Subperm members

/-- The keys of the members of an object. -/
def Json.Value.keys : Value → List String
  | .object members => members.filterMap (·.1)
  | _ => []

/-- The settings of a project, with the defaults for all members but the named ones. -/
def ProjectOptions.keeping (names : List String) (project : ProjectOptions) : ProjectOptions :=
  let defaults : ProjectOptions := {}
  { enabled := if "enabled" ∈ names then project.enabled else defaults.enabled
    assetsRoot := if "assets_root" ∈ names then project.assetsRoot else defaults.assetsRoot
    defaultOutputDirectory :=
      if "default_output_directory" ∈ names then project.defaultOutputDirectory
      else defaults.defaultOutputDirectory
    defaultSpace := if "default_namespace" ∈ names then project.defaultSpace else defaults.defaultSpace
    duplicateNames :=
      if "duplicate_names" ∈ names then project.duplicateNames else defaults.duplicateNames
    customTypes := if "custom_types" ∈ names then project.customTypes else defaults.customTypes }

/-- The setting of a file, with the defaults for all members but the named ones. -/
def AssetOptions.keeping (names : List String) (setting : AssetOptions) : AssetOptions :=
  let defaults : AssetOptions := {}
  { shape := if "generation_shape" ∈ names then setting.shape else defaults.shape
    outputDirectory :=
      if "output_directory" ∈ names then setting.outputDirectory else defaults.outputDirectory
    space := if "namespace" ∈ names then setting.space else defaults.space
    filePrefix := if "file_prefix" ∈ names then setting.filePrefix else defaults.filePrefix
    fileSuffix := if "file_suffix" ∈ names then setting.fileSuffix else defaults.fileSuffix
    path := if "path" ∈ names then setting.path else defaults.path
    lastBindings :=
      if "last_bindings_output_path" ∈ names then setting.lastBindings else defaults.lastBindings
    lastScript :=
      if "last_script_output_path" ∈ names then setting.lastScript else defaults.lastScript }

/-- A document for settings in which members may be missing at every level: `project` and `files` are
what it has to write for the project and for the files, if it writes them at all. -/
structure Settings.IsExcerpt (settings : Settings) (document project : Value) (files : List Value) :
    Prop where
  ofProject : project.IsExcerpt settings.project.toValue
  ofFiles : List.Forall₂ (fun file setting => file.IsExcerpt setting.toValue) files settings.files
  ofDocument : document.IsExcerpt (.ofMembers [("project", project), ("files", .array files)])

/-- The settings, with the defaults for all members that a document leaves out. -/
def Settings.keeping (settings : Settings) (document project : Value) (files : List Value) :
    Settings where
  project := if "project" ∈ document.keys then settings.project.keeping project.keys else {}
  files :=
    if "files" ∈ document.keys then
      List.zipWith (fun setting value => setting.keeping value.keys) settings.files files
    else []

/-! ## Members of an excerpt -/

theorem Json.Value.ofMembers_injective : Function.Injective Value.ofMembers := by
  intro first second h
  rw [Value.ofMembers, Value.ofMembers, Value.object.injEq] at h
  refine List.map_injective_iff.2 (fun one two hsame => ?_) h
  obtain ⟨hkey, hvalue⟩ := Prod.mk.inj hsame
  exact Prod.ext (Option.some.inj hkey) hvalue

@[simp] theorem Json.Value.keys_ofMembers (members : List (String × Value)) :
    (Value.ofMembers members).keys = members.map (·.1) := by
  induction members with
  | nil => rfl
  | cons member rest ih => exact congrArg (member.1 :: ·) ih

/-- A value of a member is the one that is looked up if no key occurs twice. -/
theorem lookup_of_mem {members : List (String × Value)} (hdistinct : (members.map (·.1)).Nodup)
    {name : String} {value : Value} (hmem : (name, value) ∈ members) :
    members.lookup name = some value := by
  induction members with
  | nil => cases hmem
  | cons member rest ih =>
    rw [List.map_cons, List.nodup_cons] at hdistinct
    obtain ⟨hnew, hdistinct⟩ := hdistinct
    rw [List.lookup_cons]
    rcases List.mem_cons.1 hmem with rfl | hmem
    · simp
    · have hother : name ≠ member.1 := by
        rintro rfl
        exact hnew (List.mem_map.2 ⟨_, hmem, rfl⟩)
      rw [beq_false_of_ne hother]
      exact ih hdistinct hmem

section

variable {written members : List (String × Value)} (hsome : written.Subperm members)
include hsome

/-- No key of an excerpt occurs twice if none of the full object does. -/
theorem nodup_of_subperm (hdistinct : (members.map (·.1)).Nodup) : (written.map (·.1)).Nodup := by
  obtain ⟨ordered, hperm, hsub⟩ := hsome
  exact (hperm.map (·.1)).nodup_iff.1 (hdistinct.sublist (hsub.map (·.1)))

/-- A member that is written is read as in the full object, and another one as its default. -/
theorem memberOr_of_subperm (hdistinct : (members.map (·.1)).Nodup) {α : Type} (name : String)
    (read? : Value → Option α) (default : α) :
    memberOr written name read? default =
      if name ∈ written.map (·.1) then memberOr members name read? default else some default := by
  unfold memberOr
  cases hlookup : written.lookup name with
  | none =>
    have habsent : name ∉ written.map (·.1) := by
      intro hmem
      obtain ⟨member, hwritten, rfl⟩ := List.mem_map.1 hmem
      simpa using List.lookup_eq_none_iff.1 hlookup member hwritten
    rw [if_neg habsent]
  | some value =>
    obtain ⟨before, after, hsplit, -⟩ := List.lookup_eq_some_iff.1 hlookup
    have hmem : (name, value) ∈ written := by simp [hsplit]
    rw [if_pos (List.mem_map.2 ⟨_, hmem, rfl⟩), lookup_of_mem hdistinct (hsome.subset hmem)]

end

/-- An excerpt of a record has the members of the record that it writes. -/
theorem recordMembers?_of_subperm {names : List String} {written members : List (String × Value)}
    (hsome : written.Subperm members) (hknown : ∀ member ∈ members, member.1 ∈ names)
    (hdistinct : (members.map (·.1)).Nodup) :
    recordMembers? names (.ofMembers written) = some written :=
  recordMembers?_ofMembers (fun member hmem => hknown member (hsome.subset hmem))
    (nodup_of_subperm hsome hdistinct)

/-! ## Records -/

/-- The settings of a project are read from an excerpt with the defaults of a project. -/
theorem ProjectOptions.ofValue?_of_isExcerpt {project : ProjectOptions} {excerpt : Value}
    (h : excerpt.IsExcerpt project.toValue) :
    ProjectOptions.ofValue? excerpt = some (project.keeping excerpt.keys) := by
  obtain ⟨written, members, rfl, hmembers, hsome⟩ := h
  obtain rfl := Value.ofMembers_injective hmembers
  rw [ofValue?, overwrite?, recordMembers?_of_subperm hsome (by simp [memberNames]) (by simp),
    Value.keys_ofMembers]
  have hread {α : Type} (name : String) (read? : Value → Option α) (default : α) :=
    memberOr_of_subperm hsome (by simp) name read? default
  simp only [Option.bind_eq_bind, Option.bind_some, hread]
  simp [memberOr_cons, readPolicy?_policyName, readTypes?_typesValue, Value.boolean?, ← apply_ite some, keeping]

/-- The setting of a file is read from an excerpt with the defaults of a file, whatever the project
has. -/
theorem AssetOptions.ofValue?_of_isExcerpt {setting : AssetOptions} {excerpt : Value}
    (h : excerpt.IsExcerpt setting.toValue) :
    AssetOptions.ofValue? excerpt = some (setting.keeping excerpt.keys) := by
  obtain ⟨written, members, rfl, hmembers, hsome⟩ := h
  obtain rfl := Value.ofMembers_injective hmembers
  rw [ofValue?, overwrite?, recordMembers?_of_subperm hsome (by simp [memberNames]) (by simp),
    Value.keys_ofMembers]
  have hread {α : Type} (name : String) (read? : Value → Option α) (default : α) :=
    memberOr_of_subperm hsome (by simp) name read? default
  simp only [Option.bind_eq_bind, Option.bind_some, hread]
  simp [memberOr_cons, readShape?_name, readOptionalPath?_optionalPathValue, ← apply_ite some,
    keeping]

/-- Settings of files are read one by one. -/
theorem AssetOptions.listOfValue?_of_isExcerpt {settings : List AssetOptions} {excerpts : List Value}
    (h : List.Forall₂ (fun excerpt setting => excerpt.IsExcerpt setting.toValue) excerpts settings) :
    AssetOptions.listOfValue? (.array excerpts) =
      some (List.zipWith (fun setting excerpt => setting.keeping excerpt.keys) settings excerpts) := by
  rw [listOfValue?]
  induction settings generalizing excerpts with
  | nil =>
    cases h
    rfl
  | cons setting rest ih =>
    obtain _ | ⟨hfirst, hothers⟩ := h
    rw [List.mapM_cons, ofValue?_of_isExcerpt hfirst, ih hothers]
    rfl

/-- Settings are read from a document with the defaults for all members that are missing. -/
theorem Settings.ofValue?_of_isExcerpt {settings : Settings} {document project : Value}
    {files : List Value} (h : settings.IsExcerpt document project files) :
    Settings.ofValue? document = some (settings.keeping document project files) := by
  obtain ⟨hproject, hfiles, written, members, rfl, hmembers, hsome⟩ := h
  obtain rfl := Value.ofMembers_injective hmembers
  have hread {α : Type} (name : String) (read? : Value → Option α) (default : α) :=
    memberOr_of_subperm hsome (by simp) name read? default
  rw [ofValue?, recordMembers?_of_subperm hsome (by simp) (by simp), keeping, Value.keys_ofMembers]
  simp only [Option.bind_eq_bind, Option.bind_some, hread]
  simp [memberOr_cons, ProjectOptions.ofValue?_of_isExcerpt hproject,
    AssetOptions.listOfValue?_of_isExcerpt hfiles, ← apply_ite some]

/-! ## Texts of documents -/

theorem isPlain_of_mem {members : List (String × Value)} (h : (Value.ofMembers members).IsPlain) :
    ∀ member ∈ members, member.2.IsPlain := by
  rw [Value.ofMembers, Value.IsPlain] at h
  induction members with
  | nil => exact fun _ hmem => absurd hmem List.not_mem_nil
  | cons member rest ih => exact List.forall_mem_cons.2 ⟨h.2.1, ih h.2.2⟩

/-- An excerpt of a plain value is plain. -/
theorem Json.Value.IsExcerpt.isPlain {excerpt full : Value} (h : excerpt.IsExcerpt full)
    (hfull : full.IsPlain) : excerpt.IsPlain := by
  obtain ⟨written, members, rfl, rfl, hsome⟩ := h
  exact isPlain_ofMembers fun member hmem => isPlain_of_mem hfull member (hsome.subset hmem)

/-- A document with missing members is plain. -/
theorem Settings.IsExcerpt.isPlain {settings : Settings} {document project : Value}
    {files : List Value} (h : settings.IsExcerpt document project files) : document.IsPlain := by
  have hproject := h.ofProject.isPlain settings.project.isPlain_toValue
  have hfiles : Value.ArePlain files := by
    have hplain := h.ofFiles.imp fun file setting hexcerpt =>
      And.intro (hexcerpt.isPlain setting.isPlain_toValue) hexcerpt
    exact arePlain_of_forall ((List.forall₂_and_left _ _).1 hplain).1
  exact h.ofDocument.isPlain (isPlain_ofMembers (by simp [hproject, hfiles, Value.IsPlain]))

/-- Every choice of members that a settings document leaves out, and every order of the others, makes
a document that can be written. Opening a file that holds it, however it is spaced, yields the settings
with the defaults of each record for the members that are missing there and all other members kept. -/
theorem Settings.load_excerpt {settings : Settings} {document project : Value} {files : List Value}
    (h : settings.IsExcerpt document project files) :
    Value.parse? (document.render ++ "\n") = some document ∧
      ∀ (text : String), Value.parse? text = some document →
        ∀ (tree : FileTree) (path : Pathname), tree.readText path = .ok text →
          Store.load tree path =
            .ok { settings := settings.keeping document project files, backing := .file path } := by
  have hblank : ∀ c ∈ "\n".toList, Token.isBlank c = true := List.forall_mem_singleton.2 rfl
  refine ⟨Value.parse?_render_append h.isPlain hblank, fun text hparse tree path hread => ?_⟩
  have htext : Settings.ofText? text = some (settings.keeping document project files) := by
    rw [ofText?, hparse, Option.bind_some, ofValue?_of_isExcerpt h]
  rw [Store.load, hread]
  dsimp only
  rw [htext]

/-- Settings that differ from the defaults. -/
def editedSettings : Settings where
  project := { enabled := false, assetsRoot := "UI", defaultSpace := "Game" }
  files :=
    [{ path := "Menu.uxml", shape := .component, outputDirectory := "Out",
       lastBindings := some ⟨"Menu.g.cs"⟩ },
     { path := "Hud.uxml" }]

/-- Two members of the project, out of order. -/
def editedProject : Value :=
  .ofMembers [("default_namespace", .ofText "Game"), ("enabled", .boolean false)]

/-- One file with its path and its shape, and one without anything. -/
def editedFiles : List Value :=
  [.ofMembers [("path", .ofText "Menu.uxml"), ("generation_shape", .ofText "Component")],
   .ofMembers []]

/-- A document with the files first. -/
def editedDocument : Value :=
  .ofMembers [("files", .array editedFiles), ("project", editedProject)]

theorem isExcerpt_editedDocument :
    editedSettings.IsExcerpt editedDocument editedProject editedFiles := by
  have hexcerpt {written members : List (String × Value)}
      (hdistinct : (written.map (·.1)).Nodup) (hsubset : written ⊆ members) :
      (Value.ofMembers written).IsExcerpt (.ofMembers members) :=
    ⟨written, members, rfl, rfl, (List.Nodup.of_map _ hdistinct).subperm hsubset⟩
  exact
    { ofProject := hexcerpt (by decide) (by simp [editedSettings])
      ofFiles :=
        .cons (hexcerpt (by decide) (by simp [Shape.name]))
          (.cons (hexcerpt (by decide) (by simp)) .nil)
      ofDocument := hexcerpt (by decide) (by simp) }

theorem Settings.load_excerpt_edited :
    Value.parse? (editedDocument.render ++ "\n") = some editedDocument ∧
      ∃ tree : FileTree, tree.readText ⟨"settings.json"⟩ = .ok (editedDocument.render ++ "\n") ∧
        Store.load tree ⟨"settings.json"⟩ =
          .ok { settings :=
                  { project := { enabled := false, defaultSpace := "Game" }
                    files := [{ path := "Menu.uxml", shape := .component }, {}] }
                backing := .file ⟨"settings.json"⟩ } := by
  obtain ⟨hparse, hload⟩ := load_excerpt isExcerpt_editedDocument
  let tree : FileTree := ({} : FileTree).put ["settings.json"]
    (.file (.text (editedDocument.render ++ "\n")))
  have hread : tree.readText ⟨"settings.json"⟩ = .ok (editedDocument.render ++ "\n") := rfl
  refine ⟨hparse, tree, hread, (hload _ hparse tree _ hread).trans ?_⟩
  decide

end UxmlBindings
