import UxmlBindings.Proofs.Binding.Declarations
import UxmlBindings.Proofs.Files.Pieces
import UxmlBindings.Proofs.Workspace.Generation

/-!
# Where the files of an asset go

The name of an asset and the names of its files come from its setting alone. Of its document the root
has a say in the directory: where it carries a true flag for the editor, the files go one directory
further down, and where the value of that flag is no truth value the document is refused. Nothing else
of the root matters to the files, and nothing of it to what is in them.
-/

namespace UxmlBindings.Workspace

open Binding Files Markup

/-- The segment that the flag of a root adds to the directory of its files. -/
def editorSegment (root : Element) : List Component :=
  match root.flag editorKey with
  | .ok true => [.named "Editor"]
  | _ => []

/-- The files of an asset are in a directory, under a name with the endings of bindings and of scripts.
The name is joined to the directory, so it may lead elsewhere if it has slashes in it. -/
structure Asset.LiesIn (asset : Asset) (directory : Pathname) (name : String) : Prop where
  bindingsPath : asset.bindingsPath = directory.join ⟨name ++ ".g.cs"⟩
  scriptPath : asset.scriptPath = directory.join ⟨name ++ ".cs"⟩
  bindingsComponents : '/' ∉ name.toList →
    asset.bindingsPath.components = directory.components ++ [.named (name ++ ".g.cs")]
  scriptComponents : '/' ∉ name.toList →
    asset.scriptPath.components = directory.components ++ [.named (name ++ ".cs")]

/-- A name without slashes, with an ending of a source file, is one component below a directory. -/
theorem components_join_ending (directory : Pathname) {name ending : String}
    (habsent : '/' ∉ name.toList) (hending : '/' ∉ ending.toList) (hlength : 3 ≤ ending.length) :
    (directory.join ⟨name ++ ending⟩).components =
      directory.components ++ [.named (name ++ ending)] := by
  have hchars : (name ++ ending).toList = name.toList ++ ending.toList := String.toList_append
  have hlong : 3 ≤ (name ++ ending).toList.length := by
    rw [hchars, List.length_append, String.length_toList, String.length_toList]
    omega
  have hslash : '/' ∉ (name ++ ending).toList := by
    rw [hchars, List.mem_append, not_or]
    exact ⟨habsent, hending⟩
  have hsolid : Pathname.isIdle (name ++ ending).toList = false := by
    match hshort : (name ++ ending).toList with
    | [] | [_] => simp [hshort] at hlong
    | _ :: _ :: _ => simp [Pathname.isIdle]
  have hup : (name ++ ending).toList ≠ ['.', '.'] := by
    intro htext
    rw [htext] at hlong
    exact absurd hlong (by decide)
  obtain ⟨hlead, hname⟩ := Pathname.components_name hslash hsolid hup
  rw [Pathname.components_join directory hlead, hname]

/-- The directory of generated files has the segment for the editor below those of the setting exactly
if the files are meant for the editor. -/
theorem components_targetDirectory (project : ProjectOptions) (setting : AssetOptions)
    (editorOnly : Bool) :
    (targetDirectory project setting editorOnly).components =
      (Pathname.join ⟨project.assetsRoot⟩ ⟨setting.outputDirectory⟩).components ++
        if editorOnly then [.named "Editor"] else [] := by
  cases editorOnly with
  | false => exact (List.append_nil _).symm
  | true =>
    have hlead : editorFolder.split.1 = .none := by decide +kernel
    have hname : editorFolder.components = [.named "Editor"] := by decide +kernel
    rw [targetDirectory, if_pos rfl, Pathname.components_join _ hlead, hname]
    rfl

section Reading

variable {markup : String} {root : Element} {project : ProjectOptions} {setting : AssetOptions}

/-- A document is refused for the fault of its root's flag and for nothing else. -/
theorem read_eq_error_iff (hparse : Element.parse markup = .ok root) (error : DocumentError) :
    Asset.read markup project setting = .error error ↔ root.flag editorKey = .error error := by
  rw [Asset.read, hparse]
  dsimp only [bind, Except.bind]
  cases root.flag editorKey with
  | error fault => rw [Except.error.injEq, Except.error.injEq]
  | ok editorOnly => exact iff_of_false nofun nofun

/-- A document whose root has a flag, or none, is the document of an asset. -/
theorem exists_read (project : ProjectOptions) (setting : AssetOptions)
    (hparse : Element.parse markup = .ok root) {editorOnly : Bool}
    (hflag : root.flag editorKey = .ok editorOnly) :
    ∃ asset, Asset.read markup project setting = .ok asset := by
  cases hread : Asset.read markup project setting with
  | ok asset => exact ⟨asset, rfl⟩
  | error error =>
    have hfault := (read_eq_error_iff hparse error).1 hread
    rw [hflag] at hfault
    cases hfault

/-- An asset is named after the path of its setting, and its files lie in the directory of the setting,
or in the one for the editor below. -/
theorem liesIn_of_read (hparse : Element.parse markup = .ok root) {asset : Asset}
    (hread : Asset.read markup project setting = .ok asset) :
    asset.name = (Pathname.stem? ⟨setting.path⟩).getD "" ∧
      ∃ directory : Pathname,
        directory.components =
          (Pathname.join ⟨project.assetsRoot⟩ ⟨setting.outputDirectory⟩).components ++
            editorSegment root ∧
        asset.LiesIn directory (setting.filePrefix ++ asset.name ++ setting.fileSuffix) := by
  obtain ⟨document, hdocument, hrest⟩ := bind_eq_ok_iff.1 hread
  obtain rfl := Except.ok.inj (hparse.symm.trans hdocument)
  obtain ⟨editorOnly, hflag, hasset⟩ := bind_eq_ok_iff.1 hrest
  obtain rfl := Except.ok.inj hasset
  refine ⟨rfl, targetDirectory project setting editorOnly, ?_, rfl, rfl, fun habsent => ?_,
    fun habsent => ?_⟩
  · rw [components_targetDirectory, editorSegment, hflag]
    cases editorOnly <;> rfl
  · exact components_join_ending _ habsent (by decide) (by decide)
  · exact components_join_ending _ habsent (by decide) (by decide)

end Reading

/-- Two documents have the same bindings, warnings and errors for every table, policy, shape and asset
exactly if they have the same declarations. Texts of them are refused for the flags of their roots
only. The assets that are read from them under the same settings have the same name and the same file
names, in directories that differ by the segment of the flags and by nothing else. -/
theorem documentBindings_read_alike (first second : Element) :
    ((∀ table policy shape asset,
        documentBindings table policy first shape asset =
          documentBindings table policy second shape asset) ↔
      declarations first = declarations second) ∧
      ∀ firstText secondText, Element.parse firstText = .ok first →
        Element.parse secondText = .ok second → ∀ project setting,
          (∀ error, Asset.read firstText project setting = .error error ↔
            first.flag editorKey = .error error) ∧
          (∀ error, Asset.read secondText project setting = .error error ↔
            second.flag editorKey = .error error) ∧
          ∀ one other, Asset.read firstText project setting = .ok one →
            Asset.read secondText project setting = .ok other →
              one.name = other.name ∧
              ∃ base directory directory',
                base = (Pathname.join ⟨project.assetsRoot⟩ ⟨setting.outputDirectory⟩).components ∧
                Pathname.components directory = base ++ editorSegment first ∧
                Pathname.components directory' = base ++ editorSegment second ∧
                one.LiesIn directory (setting.filePrefix ++ one.name ++ setting.fileSuffix) ∧
                other.LiesIn directory' (setting.filePrefix ++ one.name ++ setting.fileSuffix) := by
  refine ⟨documentBindings_eq_iff first second, ?_⟩
  intro firstText secondText hfirst hsecond project setting
  refine ⟨read_eq_error_iff hfirst, read_eq_error_iff hsecond, ?_⟩
  intro one other hone hother
  obtain ⟨hname, directory, hdirectory, hlies⟩ := liesIn_of_read hfirst hone
  obtain ⟨hname', directory', hdirectory', hlies'⟩ := liesIn_of_read hsecond hother
  have hsame : one.name = other.name := hname.trans hname'.symm
  rw [← hsame] at hlies'
  exact ⟨hsame, _, directory, directory', rfl, hdirectory, hdirectory', hlies, hlies'⟩

/-- A document with one named element. -/
def gameText : String := "<UXML><Button name='play'/></UXML>"

/-- The tree of this document. -/
def gameDocument : Element where
  tag := "UXML"
  children := [{ tag := "Button", attributes := ({} : Attributes).insert "name" "play" }]

/-- A document for the editor with the same declaration, deeper down and among other things. -/
def toolText : String :=
  "<ui:UXML name='tool' editor-extension-mode=' True '><ui:Box>" ++
    "<ui:Button name='play' text='Go'/><Label name=''/></ui:Box></ui:UXML>"

/-- The tree of this document. -/
def toolDocument : Element where
  tag := "UXML"
  scope := some "ui"
  attributes := (({} : Attributes).insert "name" "tool").insert "editor-extension-mode" " True "
  children :=
    [{ tag := "Box"
       scope := some "ui"
       children :=
        [{ tag := "Button"
           scope := some "ui"
           attributes := (({} : Attributes).insert "name" "play").insert "text" "Go" },
         { tag := "Label", attributes := ({} : Attributes).insert "name" "" }] }]

/-- The setting of an asset with a prefix. -/
def toolSetting : AssetOptions where
  outputDirectory := "Markbind"
  filePrefix := "UI"
  path := "Assets/Menu.uxml"

theorem documentBindings_read_alike_tool :
    declarations gameDocument = declarations toolDocument ∧
      Element.parse gameText = .ok gameDocument ∧
      Element.parse toolText = .ok toolDocument ∧
      (∀ table policy shape asset,
        documentBindings table policy gameDocument shape asset =
          documentBindings table policy toolDocument shape asset) ∧
      ∃ one other, Asset.read gameText {} toolSetting = .ok one ∧
        Asset.read toolText {} toolSetting = .ok other ∧
        one.name = other.name ∧
        ∃ base directory directory',
          base = (Pathname.join ⟨"Assets"⟩ ⟨"Markbind"⟩).components ∧
          Pathname.components directory = base ++ editorSegment gameDocument ∧
          Pathname.components directory' = base ++ editorSegment toolDocument ∧
          one.LiesIn directory ("UI" ++ one.name ++ "") ∧
          other.LiesIn directory' ("UI" ++ one.name ++ "") := by
  have hsame : declarations gameDocument = declarations toolDocument := by decide +kernel
  have hgame : Element.parse gameText = .ok gameDocument := eq_ok_of_toOption (by decide +kernel)
  have htool : Element.parse toolText = .ok toolDocument := eq_ok_of_toOption (by decide +kernel)
  have hruntime : gameDocument.flag editorKey = .ok false := by decide +kernel
  have heditor : toolDocument.flag editorKey = .ok true := by decide +kernel
  obtain ⟨one, hone⟩ := exists_read {} toolSetting hgame hruntime
  obtain ⟨other, hother⟩ := exists_read {} toolSetting htool heditor
  obtain ⟨hbindings, hread⟩ := documentBindings_read_alike gameDocument toolDocument
  obtain ⟨-, -, hassets⟩ := hread gameText toolText hgame htool {} toolSetting
  exact ⟨hsame, hgame, htool, hbindings.2 hsame, one, other, hone, hother,
    hassets one other hone hother⟩

/-- A document with the same declaration whose root has a flag of no truth value. -/
def doubtfulText : String := "<UXML editor-extension-mode='maybe'><Button name='play'/></UXML>"

/-- The tree of this document. -/
def doubtfulDocument : Element :=
  gameDocument.set "editor-extension-mode" "maybe"

/-- Of two texts with the same declarations one may be refused, so not every text of a document has an
asset at all. -/
theorem read_refuses_doubtful :
    ¬ ∀ (first second : Element) (firstText secondText : String),
      declarations first = declarations second → Element.parse firstText = .ok first →
        Element.parse secondText = .ok second → ∀ project setting,
          ∃ one other, Asset.read firstText project setting = .ok one ∧
            Asset.read secondText project setting = .ok other ∧ one.name = other.name := by
  intro hclaim
  have hgame : Element.parse gameText = .ok gameDocument := eq_ok_of_toOption (by decide +kernel)
  have hdoubtful : Element.parse doubtfulText = .ok doubtfulDocument :=
    eq_ok_of_toOption (by decide +kernel)
  obtain ⟨one, other, -, hother, -⟩ := hclaim gameDocument doubtfulDocument gameText doubtfulText
    (by decide +kernel) hgame hdoubtful {} { path := "Menu.uxml" }
  rw [(read_eq_error_iff hdoubtful (.notAFlag "UXML" editorKey "maybe")).2 (by decide +kernel)]
    at hother
  cases hother

end UxmlBindings.Workspace
