import UxmlBindings.Proofs.Files.Repeats
import UxmlBindings.Proofs.Workspace.Outputs
import UxmlBindings.Proofs.Workspace.Refused

/-!
# Runs that are repeated

A run that has succeeded is followed by one that finds the same asset and writes the same file. What
the first run removes is not the source: a source that is named like bindings, or like their
description, has a dot in its stem, and there is no class with a dot in its name. Nor is it what the run
has written, because plain paths that lead to the same file are the same. So the second run comes to
the same report, and changes neither files nor settings.

Of the system it is asked that there are no links, without which plain paths with different names could
lead to the same file, and that it can write again what it has written.
-/

namespace UxmlBindings.Workspace

open Binding Files FileTree Markup Settings

/-- The paths of a setting are plain, and bindings were recorded under a path that ends as the names of
bindings do. -/
structure PlainPaths (project : ProjectOptions) (setting : AssetOptions) : Prop where
  source : Pathname.isPlain ⟨setting.path⟩ = true
  assetsRoot : Pathname.isPlain ⟨project.assetsRoot⟩ = true
  outputDirectory : Pathname.isPlain ⟨setting.outputDirectory⟩ = true
  recorded : ∀ last, setting.lastBindings = some last → last.isPlain = true ∧ NamesBindings last

/-- Two settings differ at most in what they record. -/
structure SameButRecords (setting other : AssetOptions) : Prop where
  shape : other.shape = setting.shape
  outputDirectory : other.outputDirectory = setting.outputDirectory
  space : other.space = setting.space
  filePrefix : other.filePrefix = setting.filePrefix
  fileSuffix : other.fileSuffix = setting.fileSuffix
  path : other.path = setting.path

section Names

/-- The stem of a name is what stands before its last dot. -/
theorem stemOf_append {before ending : List Char} (hbefore : before ≠ []) (hending : '.' ∉ ending) :
    Pathname.stemOf (before ++ '.' :: ending) = before := by
  rw [Pathname.stemOf, Text.splitOn_append_cons, Text.splitOn_of_notMem hending,
    List.dropLast_concat, Text.intercalate_splitOn, if_neg (by simpa using hbefore)]

/-- A plain path with a dotless stem is not named like bindings, nor like their description. -/
theorem not_named_of_stem {path : Pathname} (hplain : path.isPlain = true)
    (hdot : '.' ∉ (path.stem?.getD "").toList) :
    namedBindings path.names = false ∧ namedDescription path.names = false := by
  have hlast : path.lastName? = path.names.getLast? := by
    rw [Pathname.lastName?, Pathname.components_of_isPlain hplain, List.getLast?_map]
    cases path.names.getLast? <;> rfl
  unfold namedBindings namedDescription
  cases hname : path.names.getLast? with
  | none => exact ⟨rfl, rfl⟩
  | some name =>
    rw [Pathname.stem?, hlast, hname, Option.map_some, Option.getD_some, String.toList_ofList] at hdot
    -- A name with one of the endings has a dot before its last one.
    have hends (before : List Char) (ending : String) (hhead : before ≠ []) (hmem : '.' ∈ before)
        (habsent : '.' ∉ ending.toList) : name.toList ≠ before ++ '.' :: ending.toList := by
      intro htext
      rw [htext, stemOf_append hhead habsent] at hdot
      exact hdot hmem
    simp only [Option.any_some, endsIn, Bool.eq_false_iff, ne_eq, List.isSuffixOf_iff_suffix]
    constructor
    · rintro ⟨before, htext⟩
      refine hends (before ++ ['.', 'g']) "cs" (by simp) (by simp) (by decide) ?_
      rw [← htext, List.append_assoc]
      rfl
    · rintro ⟨before, htext⟩
      refine hends (before ++ bindingsEnding.toList) "meta" (by simp [bindingsEnding])
        (by simp [bindingsEnding]) (by decide) ?_
      rw [← htext, String.toList_append, ← List.append_assoc]
      rfl

end Names

section Assets

variable {workspace later : Workspace} {path : String} {asset : Asset} {text : GeneratedText}
  {other : AssetOptions} {last : Pathname}

/-- What is read of a document does not depend on records. -/
theorem read_of_sameButRecords {markup : String} {project : ProjectOptions} {setting : AssetOptions}
    (hsame : SameButRecords setting other) :
    Asset.read markup project other =
      (Asset.read markup project setting).map fun asset => { asset with setting := other } := by
  unfold Asset.read targetDirectory
  rw [hsame.path, hsame.outputDirectory, hsame.filePrefix, hsame.fileSuffix]
  cases Element.parse markup with
  | error error => rfl
  | ok root =>
    dsimp only [bind, Except.bind]
    cases root.flag editorKey <;> rfl

/-- Where the source of an asset is as before, and its setting is but for what it records, the same asset
is opened again. -/
theorem asset?_again (hasset : workspace.asset? path = .ok asset)
    (hfind : later.settings.find? (keyOf path) = some other)
    (hsame : SameButRecords asset.setting other) (hproject : later.project = workspace.project)
    (hsource : later.tree.readText (later.locate ⟨asset.source⟩) =
      workspace.tree.readText (workspace.locate ⟨asset.source⟩)) :
    later.asset? path = .ok { asset with setting := other } := by
  obtain ⟨setting, markup, hsetting, hmarkup, hread⟩ := asset?_eq_ok_iff.1 hasset
  obtain ⟨rfl, -⟩ := Asset.read_eq_ok hread
  refine asset?_eq_ok_iff.2 ⟨other, markup, hfind, ?_, ?_⟩
  · rw [hsame.path]
    exact hsource.trans hmarkup
  · rw [read_of_sameButRecords hsame, hproject, hread]
    rfl

theorem ready?_again (hready : workspace.ready? path = .ok asset)
    (hfind : later.settings.find? (keyOf path) = some other)
    (hsame : SameButRecords asset.setting other) (hproject : later.project = workspace.project)
    (hsource : later.tree.readText (later.locate ⟨asset.source⟩) =
      workspace.tree.readText (workspace.locate ⟨asset.source⟩)) :
    later.ready? path = .ok { asset with setting := other } := by
  have hagain := asset?_again (asset?_of_ready? hready) hfind hsame hproject hsource
  unfold ready? at hready ⊢
  split at hready
  · rename_i henabled
    rw [hproject, if_pos henabled, hagain]
  · cases hready

/-- What is generated is named as before. -/
theorem assetName_again (hsame : SameButRecords asset.setting other) :
    Asset.assetName { asset with setting := other } = asset.assetName := by
  rw [Asset.assetName, Asset.assetName, hsame.space, hsame.filePrefix, hsame.fileSuffix]

/-- A run for bindings that comes upon the same asset has the same to write. -/
theorem bindings?_again (hready : workspace.bindings? path = .ok (asset, text))
    (hfind : later.settings.find? (keyOf path) = some other)
    (hsame : SameButRecords asset.setting other) (hproject : later.project = workspace.project)
    (htypes : later.sessionTypes = workspace.sessionTypes)
    (hsource : later.tree.readText (later.locate ⟨asset.source⟩) =
      workspace.tree.readText (workspace.locate ⟨asset.source⟩)) :
    later.bindings? path = .ok ({ asset with setting := other }, text) := by
  obtain ⟨hopen, htext⟩ := bindings?_eq_ok_iff.1 hready
  refine bindings?_eq_ok_iff.2 ⟨ready?_again hopen hfind hsame hproject hsource, ?_⟩
  rw [← htext, bindingsText, bindingsText, elementTypes, elementTypes, hproject, htypes,
    assetName_again hsame, hsame.shape]

/-- A run for a script that comes upon the same asset has the same to write. -/
theorem script?_again (hready : workspace.script? path = .ok (asset, text))
    (hfind : later.settings.find? (keyOf path) = some other)
    (hsame : SameButRecords asset.setting other) (hproject : later.project = workspace.project)
    (hsource : later.tree.readText (later.locate ⟨asset.source⟩) =
      workspace.tree.readText (workspace.locate ⟨asset.source⟩)) :
    later.script? path = .ok ({ asset with setting := other }, text) := by
  obtain ⟨hopen, htext⟩ := script?_eq_ok_iff.1 hready
  refine script?_eq_ok_iff.2 ⟨ready?_again hopen hfind hsame hproject hsource, ?_⟩
  rw [← htext, Asset.scriptText, Asset.scriptText, assetName_again hsame, hsame.shape]

/-- What was recorded for an asset is found in its setting. -/
theorem find?_of_recorded {record : AssetOptions → AssetOptions}
    (hasset : workspace.asset? path = .ok asset) (hkey : keyOf (keyOf path) = keyOf path)
    (hsettings : later.settings = workspace.settings.change (keyOf asset.source) record)
    (hpath : ∀ setting, (record setting).path = setting.path) :
    later.settings.find? (keyOf path) = some (record asset.setting) ∧
      later.project = workspace.project := by
  rw [Workspace.project, hsettings, source_of_asset? hasset, hkey,
    find?_change _ _ fun setting h => (hpath setting).trans h, if_pos rfl, (asset?_eq_ok hasset).1]
  exact ⟨rfl, rfl⟩

/-- The name of an asset is the stem of its source. -/
theorem name_of_asset? (hasset : workspace.asset? path = .ok asset) :
    asset.name = (Pathname.stem? ⟨asset.source⟩).getD "" := by
  obtain ⟨setting, markup, -, -, hread⟩ := asset?_eq_ok_iff.1 hasset
  obtain ⟨root, -, hrest⟩ := bind_eq_ok_iff.1 hread
  obtain ⟨editorOnly, -, hasset⟩ := bind_eq_ok_iff.1 hrest
  obtain rfl := Except.ok.inj hasset
  rfl

/-- The source of an asset that passes the check is not named like bindings, nor like their
description. -/
theorem not_named_source (hasset : workspace.asset? path = .ok asset)
    (hcheck : asset.assetName.check = .ok ())
    (hplain : Pathname.isPlain ⟨asset.source⟩ = true) :
    namedBindings (Pathname.names ⟨asset.source⟩) = false ∧
      namedDescription (Pathname.names ⟨asset.source⟩) = false := by
  refine not_named_of_stem hplain ?_
  rw [← name_of_asset? hasset]
  intro hdot
  refine notMem_className_of_check hcheck (c := '.') (by decide +kernel) ?_
  rw [AssetName.className, String.toList_append, String.toList_append]
  exact List.mem_append_left _ (List.mem_append_right _ hdot)

/-- The files of an asset with plain paths have plain paths. -/
theorem isPlain_outputs (hasset : workspace.asset? path = .ok asset)
    (hcheck : asset.assetName.check = .ok ())
    (hplain : PlainPaths workspace.project asset.setting) :
    asset.bindingsPath.isPlain = true ∧ asset.scriptPath.isPlain = true := by
  obtain ⟨setting, markup, -, -, hread⟩ := asset?_eq_ok_iff.1 hasset
  obtain ⟨rfl, -⟩ := Asset.read_eq_ok hread
  obtain ⟨root, hparse, -⟩ := bind_eq_ok_iff.1 hread
  obtain ⟨-, directory, hdirectory, hlies⟩ := liesIn_of_read hparse hread
  have habsent : '/' ∉ (asset.setting.filePrefix ++ asset.name ++ asset.setting.fileSuffix).toList :=
    notMem_className_of_check hcheck (by decide +kernel)
  have hbase : directory.isPlain = true := by
    have hjoin := Pathname.isPlain_join hplain.assetsRoot hplain.outputDirectory
    rw [Pathname.isPlain] at hjoin ⊢
    rw [hdirectory, List.all_append, hjoin, editorSegment]
    split <;> rfl
  unfold Pathname.isPlain at hbase ⊢
  rw [hlies.bindingsComponents habsent, hlies.scriptComponents habsent, List.all_append,
    List.all_append, hbase]
  exact ⟨rfl, rfl⟩

/-- A plain source is its own key. -/
theorem keyOf_of_isPlain (hasset : workspace.asset? path = .ok asset)
    (hplain : Pathname.isPlain ⟨asset.source⟩ = true) : keyOf (keyOf path) = keyOf path := by
  rw [keyOf_keyOf_eq_iff, ← source_of_asset? hasset]
  exact Pathname.not_isPrefix_of_isPlain hplain

end Assets

section Places

variable {system : System} {workspace : Workspace} {path root last : Pathname}
  {previous : Option Pathname} {current : Pathname} {location : Location} {tree : FileTree}

/-- What is named like bindings is not named like their description. -/
theorem namedDescription_of_namedBindings (hnamed : namedBindings location = true) :
    namedDescription location = false := by
  have hmeta := namedMeta_of_namedBindings hnamed
  unfold namedMeta namedDescription at *
  cases hlast : location.getLast? with
  | none => rfl
  | some name =>
    rw [hlast, Option.any_some, endsIn, Bool.eq_false_iff, ne_eq,
      List.isSuffixOf_iff_suffix] at hmeta
    rw [Option.any_some, endsIn, Bool.eq_false_iff, ne_eq, List.isSuffixOf_iff_suffix,
      String.toList_append]
    exact fun hending => hmeta ((List.suffix_append _ _).trans hending)

/-- There is nothing to clean up where bindings are written as before. -/
theorem withoutStaleOn_same (system : System) (workspace : Workspace) (current : Pathname) :
    withoutStaleOn system workspace (some current) current = workspace.tree :=
  if_pos (Pathname.same_refl current)

/-- Without links, removing a file and its description leaves all other files. -/
theorem content?_withoutDescribedOn (hlinkless : system.IsLinkless)
    (hpath : placeOf tree.home path ≠ location)
    (hdescription : placeOf tree.home (path.extend metaEnding) ≠ location) :
    Grows tree (withoutDescribedOn system tree path) ∧
      (withoutDescribedOn system tree path).content? location = tree.content? location := by
  obtain ⟨hgrows, hfirst⟩ := hlinkless.removal tree (path.extend metaEnding)
  unfold withoutDescribedOn
  generalize system.removeFile tree (path.extend metaEnding) = removed at hgrows hfirst
  obtain ⟨outcome, made⟩ := removed
  have hsame : made.content? location = tree.content? location := hfirst location hdescription
  have hnext : Grows tree (system.removeFile made path).2 ∧
      (system.removeFile made path).2.content? location = tree.content? location := by
    obtain ⟨hgrown, hsecond⟩ := hlinkless.removal made path
    refine ⟨hgrows.trans hgrown, (hsecond location ?_).trans hsame⟩
    rwa [hgrows.home]
  cases outcome with
  | ok => exact hnext
  | error fault =>
    cases fault with
    | notFound => exact hnext
    | _ => exact ⟨hgrows, hsame⟩

/-- Clean-up leaves what is neither at the path of the run before nor at that of its description. -/
theorem content?_withoutStaleOn (hlinkless : system.IsLinkless) (workspace : Workspace)
    (current : Pathname) (location : Location)
    (hother : ∀ last, previous = some last → last.same current = false →
      placeOf workspace.tree.home (workspace.locate last) ≠ location ∧
        placeOf workspace.tree.home ((workspace.locate last).extend metaEnding) ≠ location) :
    Grows workspace.tree (withoutStaleOn system workspace previous current) ∧
      (withoutStaleOn system workspace previous current).content? location =
        workspace.tree.content? location := by
  unfold withoutStaleOn
  cases previous with
  | none => exact ⟨.refl workspace.tree, rfl⟩
  | some last =>
    dsimp only
    split
    · exact ⟨.refl workspace.tree, rfl⟩
    · rename_i hsame
      obtain ⟨hlast, hdescription⟩ := hother last rfl (Bool.eq_false_iff.2 hsame)
      exact content?_withoutDescribedOn hlinkless hlast hdescription

/-- Recorded bindings and their description are not where a plain path leads that has other names than
the bindings and is not named like a description. -/
theorem placeOf_recorded_ne (hplain : path.isPlain = true) (hlast : last.isPlain = true)
    (hends : NamesBindings last) (hnames : last.names ≠ path.names)
    (hdescription : namedDescription path.names = false) (home : Location) :
    placeOf home (root.join last) ≠ placeOf home (root.join path) ∧
      placeOf home ((root.join last).extend metaEnding) ≠ placeOf home (root.join path) := by
  have hrelative := Pathname.isAbsolute_of_isPlain hlast
  constructor
  · intro hplace
    rw [placeOf_join _ root hplain, placeOf_join _ root hlast] at hplace
    exact hnames (List.append_cancel_left hplace)
  · intro hplace
    have hextended : (last.extend metaEnding).isAbsolute = false :=
      (Pathname.isAbsolute_extend last (by decide)).trans hrelative
    have hdescends := (descends_of_isPlain hlast).extend metaEnding (by decide) (by decide)
    rw [placeOf_join _ root hplain, Pathname.extend_join root hrelative (by decide),
      placeOf_join_of_descends _ root hextended hdescends] at hplace
    have hnamed := namedDescription_placeOf hends []
    rw [placeOf_nil_of_descends hextended hdescends, List.append_cancel_left hplace,
      hdescription] at hnamed
    cases hnamed

end Places

section Runs

variable {system : System} {workspace later : Workspace} {path : String} {asset : Asset}
  {text : GeneratedText} {written : FileTree}

/-- The bindings of an asset with plain paths have names that end as those of bindings do. -/
theorem namedBindings_names {bindings : Pathname} (hplain : bindings.isPlain = true)
    (hends : NamesBindings bindings) : namedBindings bindings.names = true := by
  have hnamed := namedBindings_placeOf hends []
  rwa [placeOf_nil_of_descends (Pathname.isAbsolute_of_isPlain hplain) (descends_of_isPlain hplain)]
    at hnamed

/-- A run for bindings has something to write and writes it. -/
structure WritesBindings (system : System) (workspace : Workspace) (path : String) (asset : Asset)
    (text : GeneratedText) (written : FileTree) : Prop where
  ready : workspace.bindings? path = .ok (asset, text)
  write : system.writeWithParents workspace.tree (workspace.locate asset.bindingsPath) text.code =
    (.ok (), written)

/-- What a run that has written bindings leaves to the next one. -/
structure LeavesBindings (system : System) (workspace : Workspace) (asset : Asset)
    (written : FileTree) (later : Workspace) : Prop where
  tree : later.tree =
    withoutStaleOn system (workspace.withTree written) asset.setting.lastBindings asset.bindingsPath
  settings : later.settings = workspace.settings.change (keyOf asset.source) asset.recordBindings
  root : later.root = workspace.root
  types : later.sessionTypes = workspace.sessionTypes
  memory : later.InMemory

/-- A run for bindings that succeeds has written them. -/
theorem exists_writesBindings {report : Report}
    (hrun : (writeBindingsOn system path).execute workspace = (.ok report, later)) :
    ∃ asset text written, WritesBindings system workspace path asset text written := by
  cases hready : workspace.bindings? path with
  | error failure =>
    obtain ⟨notices, hfails⟩ := execute_writeBindingsOn_of_error system hready
    rw [hrun] at hfails
    cases congrArg Prod.fst hfails
  | ok ready =>
    obtain ⟨asset, text⟩ := ready
    rcases hwrite : system.writeWithParents workspace.tree (workspace.locate asset.bindingsPath)
      text.code with ⟨⟨place, fault⟩ | ⟨⟩, tree⟩
    · obtain ⟨notices, hfails⟩ := execute_writeBindingsOn_of_unwritten hready hwrite
      rw [hrun] at hfails
      cases congrArg Prod.fst hfails
    · exact ⟨asset, text, tree, hready, hwrite⟩

/-- A run that writes bindings succeeds. -/
theorem exists_leavesBindings (hmemory : workspace.InMemory) (hkey : keyOf (keyOf path) = keyOf path)
    (hwrites : WritesBindings system workspace path asset text written) :
    ∃ later, (writeBindingsOn system path).execute workspace =
        (.ok (bindingsReport workspace asset text), later) ∧
      LeavesBindings system workspace asset written later := by
  obtain ⟨saves, notices, hrun⟩ :=
    writeBindingsOn_succeeds hmemory hkey hwrites.ready hwrites.write
  exact ⟨_, hrun, rfl, rfl, rfl, rfl, ⟨saves, rfl⟩⟩

/-- What is left of the source of an asset and of its bindings once they were written. -/
theorem content?_of_leavesBindings (hlinkless : system.IsLinkless)
    (hwrites : WritesBindings system workspace path asset text written)
    (hleaves : LeavesBindings system workspace asset written later)
    (hplain : PlainPaths workspace.project asset.setting) :
    Grows written later.tree ∧
      later.tree.content? (placeOf workspace.tree.home (workspace.locate ⟨asset.source⟩)) =
        workspace.tree.content? (placeOf workspace.tree.home (workspace.locate ⟨asset.source⟩)) ∧
      later.tree.content? (placeOf workspace.tree.home (workspace.locate asset.bindingsPath)) =
        some (.text text.code) := by
  obtain ⟨hopen, htext⟩ := bindings?_eq_ok_iff.1 hwrites.ready
  have hasset := asset?_of_ready? hopen
  have hcheck := check_of_bindingsText htext
  have houtput := (isPlain_outputs hasset hcheck hplain).1
  have hnamed := namedBindings_names houtput (namesBindings_of_asset? hasset)
  have hsource : Pathname.isPlain ⟨asset.source⟩ = true := hplain.source
  obtain ⟨hsourceName, hdescription⟩ := not_named_source hasset hcheck hsource
  have hfile := hlinkless.writesWithParents hwrites.write
  have hhome : written.home = workspace.tree.home := hfile.home
  rw [hleaves.tree, ← hhome]
  -- What was recorded is neither the source nor what was written.
  have hsourceStays := content?_withoutStaleOn hlinkless (workspace.withTree written)
    asset.bindingsPath (placeOf written.home (workspace.locate ⟨asset.source⟩))
    fun last (hlast : asset.setting.lastBindings = some last) _ => by
      obtain ⟨hlastPlain, hends⟩ := hplain.recorded last hlast
      refine placeOf_recorded_ne hsource hlastPlain hends ?_ hdescription written.home
      intro hnames
      rw [← hnames, namedBindings_names hlastPlain hends] at hsourceName
      cases hsourceName
  have houtputStays := content?_withoutStaleOn hlinkless (workspace.withTree written)
    asset.bindingsPath (placeOf written.home (workspace.locate asset.bindingsPath))
    fun last (hlast : asset.setting.lastBindings = some last) hother => by
      obtain ⟨hlastPlain, hends⟩ := hplain.recorded last hlast
      refine placeOf_recorded_ne houtput hlastPlain hends ?_
        (namedDescription_of_namedBindings hnamed) written.home
      intro hnames
      rw [Pathname.same_of_names hlastPlain houtput hnames] at hother
      cases hother
  refine ⟨hsourceStays.1, hsourceStays.2.trans ?_, houtputStays.2.trans ?_⟩
  · rw [hhome]
    refine (hfile.content _).trans (if_neg ?_)
    rw [locate, locate, placeOf_join _ _ houtput, placeOf_join _ _ hsource]
    intro hplace
    rw [← List.append_cancel_left hplace, hnamed] at hsourceName
    cases hsourceName
  · rw [hhome]
    exact (hfile.content _).trans (if_pos rfl)

/-- The next run has the same to write, for an asset with the record that was made. -/
theorem bindings?_of_leavesBindings (hlinkless : system.IsLinkless)
    (hwrites : WritesBindings system workspace path asset text written)
    (hleaves : LeavesBindings system workspace asset written later)
    (hplain : PlainPaths workspace.project asset.setting) :
    later.bindings? path =
      .ok ({ asset with setting := asset.recordBindings asset.setting }, text) := by
  have hasset := asset?_of_bindings? hwrites.ready
  have hkey := keyOf_of_isPlain hasset hplain.source
  obtain ⟨hgrown, hsourceSame, -⟩ := content?_of_leavesBindings hlinkless hwrites hleaves hplain
  have hgrows : Grows workspace.tree later.tree :=
    (hlinkless.writesWithParents hwrites.write).toGrows.trans hgrown
  obtain ⟨hfind, hproject⟩ := find?_of_recorded hasset hkey hleaves.settings fun _ => rfl
  have hsource : later.tree.readText (later.locate ⟨asset.source⟩) =
      workspace.tree.readText (workspace.locate ⟨asset.source⟩) := by
    obtain ⟨setting, markup, hsetting, hmarkup, hread⟩ := asset?_eq_ok_iff.1 hasset
    obtain ⟨rfl, -⟩ := Asset.read_eq_ok hread
    have hlocate : later.locate ⟨asset.source⟩ = workspace.locate ⟨asset.source⟩ := by
      rw [locate, locate, hleaves.root]
    rw [hlocate]
    refine (readText_again hmarkup hgrows fun location hpath => ?_).trans hmarkup.symm
    rw [eq_placeOf hpath]
    exact hsourceSame
  exact bindings?_again hwrites.ready hfind ⟨rfl, rfl, rfl, rfl, rfl, rfl⟩ hproject hleaves.types
    hsource

/-- A run for bindings that has succeeded is repeated with the same report, and changes no files and no
settings. -/
theorem writeBindingsOn_again {report : Report} (hlinkless : system.IsLinkless)
    (hrepeatable : system.IsRepeatable) (hmemory : workspace.InMemory)
    (hplain : ∀ setting, workspace.settings.find? (keyOf path) = some setting →
      PlainPaths workspace.project setting)
    (hrun : (writeBindingsOn system path).execute workspace = (.ok report, later)) :
    ∃ again, (writeBindingsOn system path).execute later = (.ok report, again) ∧
      again.tree = later.tree ∧ again.settings = later.settings := by
  obtain ⟨asset, text, written, hwrites⟩ := exists_writesBindings hrun
  have hasset : workspace.asset? path = .ok asset := asset?_of_bindings? hwrites.ready
  have hpaths := hplain _ (asset?_eq_ok hasset).1
  have hkey := keyOf_of_isPlain hasset hpaths.source
  obtain ⟨left, hleft, hleaves⟩ := exists_leavesBindings hmemory hkey hwrites
  rw [hrun, Prod.mk.injEq, Except.ok.injEq] at hleft
  obtain ⟨rfl, rfl⟩ := hleft
  -- The second run is for the same asset, with the record that the first one has made.
  let next : Asset := { asset with setting := asset.recordBindings asset.setting }
  have hlocate (entry : Pathname) : later.locate entry = workspace.locate entry := by
    rw [locate, locate, hleaves.root]
  obtain ⟨hgrown, -, hstill⟩ := content?_of_leavesBindings hlinkless hwrites hleaves hpaths
  have hwrite : system.writeWithParents later.tree (later.locate asset.bindingsPath) text.code =
      (.ok (), later.tree) := by
    rw [hlocate]
    exact hrepeatable.writesWithParents hlinkless hwrites.write hgrown hstill
  have hnext : WritesBindings system later path next text later.tree :=
    ⟨bindings?_of_leavesBindings hlinkless hwrites hleaves hpaths, hwrite⟩
  obtain ⟨again, hagain, hleavesAgain⟩ := exists_leavesBindings hleaves.memory hkey hnext
  refine ⟨again, ?_, ?_, ?_⟩
  · rw [hagain, bindingsReport, bindingsReport, hlocate]
    rfl
  · rw [hleavesAgain.tree]
    exact withoutStaleOn_same system (later.withTree later.tree) asset.bindingsPath
  · rw [hleavesAgain.settings, hleaves.settings]
    exact change_change (fun _ => rfl) fun _ => rfl

/-- What a run for a script leaves to the next one, whether it has written or kept the script. -/
structure LeavesScript (system : System) (workspace : Workspace) (asset : Asset)
    (text : GeneratedText) (later : Workspace) : Prop where
  tree : later.tree =
    withScriptOn system workspace.tree (workspace.locate asset.scriptPath) text.code
  settings : later.settings = workspace.settings.change (keyOf asset.source) asset.recordScript
  root : later.root = workspace.root
  memory : later.InMemory

/-- A run that creates or keeps a script succeeds. -/
theorem exists_leavesScript {outcome : Outcome} (hmemory : workspace.InMemory)
    (hkey : keyOf (keyOf path) = keyOf path) (hready : workspace.script? path = .ok (asset, text))
    (hcreated : scriptOutcomeOn system workspace.tree (workspace.locate asset.scriptPath) text.code =
      .ok outcome) :
    ∃ later, (writeScriptOn system path).execute workspace =
        (.ok (scriptReport workspace asset text outcome), later) ∧
      LeavesScript system workspace asset text later := by
  obtain ⟨saves, notices, hrun⟩ := writeScriptOn_succeeds hmemory hkey hready hcreated
  exact ⟨_, hrun, rfl, rfl, rfl, ⟨saves, rfl⟩⟩

/-- A run for a script that succeeds has created or kept it. -/
theorem exists_scriptOutcomeOn {report : Report}
    (hrun : (writeScriptOn system path).execute workspace = (.ok report, later)) :
    ∃ asset text outcome, workspace.script? path = .ok (asset, text) ∧
      scriptOutcomeOn system workspace.tree (workspace.locate asset.scriptPath) text.code =
        .ok outcome := by
  cases hready : workspace.script? path with
  | error failure =>
    obtain ⟨notices, hfails⟩ := execute_writeScriptOn_of_error system hready
    rw [hrun] at hfails
    cases congrArg Prod.fst hfails
  | ok ready =>
    obtain ⟨asset, text⟩ := ready
    obtain ⟨quiet, hfails⟩ := execute_writeScriptOn_of_ok system hready
    dsimp only at hfails
    cases hcreated : scriptOutcomeOn system workspace.tree (workspace.locate asset.scriptPath)
      text.code with
    | error fault =>
      rw [hcreated, hrun] at hfails
      cases congrArg Prod.fst hfails
    | ok outcome => exact ⟨asset, text, outcome, rfl, hcreated⟩

/-- A plain source is not where a script is written: something would stand there already. -/
theorem place_source_ne (hasset : workspace.asset? path = .ok asset)
    (hcheck : asset.assetName.check = .ok ())
    (hplain : PlainPaths workspace.project asset.setting) {location : Location}
    (hpath : workspace.tree.locationOf (workspace.locate ⟨asset.source⟩) = .ok location)
    (hcontent : (workspace.tree.content? location).isSome)
    (habsent : workspace.tree.holds (workspace.locate asset.scriptPath) = false)
    (hrefusal : refusal? (workspace.locate asset.scriptPath) = none) :
    placeOf workspace.tree.home (workspace.locate asset.scriptPath) ≠ location := by
  intro hsame
  have hsource : Pathname.isPlain ⟨asset.source⟩ = true := hplain.source
  have hscript := (isPlain_outputs hasset hcheck hplain).2
  have hplace := hsame.trans (eq_placeOf hpath)
  rw [locate, locate, placeOf_join _ _ hscript, placeOf_join _ _ hsource] at hplace
  obtain ⟨-, directory, -, hends⟩ := asset?_eq_ok hasset
  have hending : scriptEnding.toList <:+ asset.scriptPath.text.toList := by
    rw [hends]
    apply Pathname.suffix_join
    rw [String.toList_append]
    exact List.suffix_append _ _
  obtain ⟨init, last, hpieces, hlast⟩ := exists_last_of_suffix (by decide) (by decide) hending
  have hlasts (piece : List Char) (hpiece : asset.scriptPath.pieces.getLast? = some piece) :
      Pathname.isIdle piece = false := by
    rw [hpieces, List.getLast?_concat, Option.some.injEq] at hpiece
    exact hpiece ▸ hlast
  have hreached := locationOf_join_of_names hpath hsource hscript
    (List.append_cancel_left hplace).symm hlasts hrefusal
  have hholds : workspace.tree.holds (workspace.locate asset.scriptPath) = true :=
    holds_of_content? hreached hcontent
  rw [hholds] at habsent
  cases habsent

/-- After a run for a script, something stands at its path, and the source is as before. -/
theorem holds_of_leavesScript {outcome : Outcome} (hlinkless : system.IsLinkless)
    (hready : workspace.script? path = .ok (asset, text))
    (hcreated : scriptOutcomeOn system workspace.tree (workspace.locate asset.scriptPath) text.code =
      .ok outcome)
    (hplain : PlainPaths workspace.project asset.setting)
    (hleaves : LeavesScript system workspace asset text later) :
    later.tree.holds (later.locate asset.scriptPath) = true ∧
      later.tree.readText (later.locate ⟨asset.source⟩) =
        workspace.tree.readText (workspace.locate ⟨asset.source⟩) := by
  have hlocate (entry : Pathname) : later.locate entry = workspace.locate entry := by
    rw [locate, locate, hleaves.root]
  rw [hlocate, hlocate, hleaves.tree]
  rcases scriptOutcomeOn_cases system workspace.tree (workspace.locate asset.scriptPath) text.code with
    ⟨hholds, -, hkept⟩ | ⟨habsent, hmade, htree⟩
  · rw [hkept]
    exact ⟨hholds, rfl⟩
  · rw [hcreated] at hmade
    rcases hwrite : system.writeWithParents workspace.tree (workspace.locate asset.scriptPath)
      text.code with ⟨fault | ⟨⟩, written⟩
    · rw [hwrite] at hmade
      cases hmade
    have hwrites := hlinkless.writesWithParents hwrite
    rw [hwrite] at htree
    rw [htree]
    refine ⟨holds_of_content? hwrites.reached (by rw [hwrites.content, if_pos rfl]; rfl), ?_⟩
    obtain ⟨hasset, hscript⟩ := script?_eq_ok hready
    obtain ⟨setting, markup, -, hmarkup, hread⟩ := asset?_eq_ok_iff.1 hasset
    obtain ⟨rfl, -⟩ := Asset.read_eq_ok hread
    refine (readText_again hmarkup hwrites.toGrows fun location hpath => ?_).trans hmarkup.symm
    have hcontent := (readText_eq_ok_iff hpath).1 hmarkup
    refine (hwrites.content location).trans (if_neg ?_)
    exact place_source_ne hasset (check_of_scriptText hscript) hplain hpath
      (by rw [hcontent]; rfl) habsent (refusal?_of_locationOf hwrites.reached)

/-- A run for a script that has succeeded is repeated with the same report, but that the script is kept,
and changes no files and no settings. -/
theorem writeScriptOn_again {report : Report} (hlinkless : system.IsLinkless)
    (hmemory : workspace.InMemory)
    (hplain : ∀ setting, workspace.settings.find? (keyOf path) = some setting →
      PlainPaths workspace.project setting)
    (hrun : (writeScriptOn system path).execute workspace = (.ok report, later)) :
    ∃ again, (writeScriptOn system path).execute later =
        (.ok { report with outcome := .skipped }, again) ∧
      again.tree = later.tree ∧ again.settings = later.settings := by
  obtain ⟨asset, text, outcome, hready, hcreated⟩ := exists_scriptOutcomeOn hrun
  obtain ⟨hasset, hscript⟩ := script?_eq_ok hready
  have hpaths := hplain _ (asset?_eq_ok hasset).1
  have hkey := keyOf_of_isPlain hasset hpaths.source
  obtain ⟨left, hleft, hleaves⟩ := exists_leavesScript hmemory hkey hready hcreated
  rw [hrun, Prod.mk.injEq, Except.ok.injEq] at hleft
  obtain ⟨rfl, rfl⟩ := hleft
  let next : Asset := { asset with setting := asset.recordScript asset.setting }
  obtain ⟨hholds, hsource⟩ := holds_of_leavesScript hlinkless hready hcreated hpaths hleaves
  obtain ⟨hfind, hproject⟩ := find?_of_recorded hasset hkey hleaves.settings fun _ => rfl
  have hnext : later.script? path = .ok (next, text) :=
    script?_again hready hfind ⟨rfl, rfl, rfl, rfl, rfl, rfl⟩ hproject hsource
  have hkept : scriptOutcomeOn system later.tree (later.locate next.scriptPath) text.code =
      .ok .skipped :=
    if_pos hholds
  obtain ⟨again, hagain, hleavesAgain⟩ := exists_leavesScript hleaves.memory hkey hnext hkept
  refine ⟨again, ?_, ?_, ?_⟩
  · rw [hagain, scriptReport, scriptReport, locate, locate, hleaves.root]
    rfl
  · rw [hleavesAgain.tree]
    exact if_pos hholds
  · rw [hleavesAgain.settings, hleaves.settings]
    exact change_change (fun _ => rfl) fun _ => rfl

end Runs

/-- A project in which bindings were written under another name before. -/
def renamingProject : Workspace where
  tree := { entries := .ofList [
    (["Menu.uxml"], Entry.file (.text "<UXML/>")),
    (["Assets"], .directory),
    (["Assets", "OldMenu.g.cs"], Entry.file (.text "class OldMenu {}")),
    (["Assets", "OldMenu.g.cs.meta"], Entry.file (.text "guid: 1"))] }
  store := .inMemory {
    files := [{ path := "Menu.uxml", lastBindings := some ⟨"Assets/OldMenu.g.cs"⟩ }] }
  root := ⟨""⟩

/-- What the next run for bindings reports. -/
def renamingReport : Report where
  source := "Menu.uxml"
  className := "Menu"
  output := ⟨"Assets/Menu.g.cs"⟩
  outcome := .written
  warnings := []

end UxmlBindings.Workspace
