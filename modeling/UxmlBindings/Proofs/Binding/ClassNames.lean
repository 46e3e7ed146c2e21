import UxmlBindings.Proofs.Binding.Halves
import UxmlBindings.Proofs.Binding.Rejection

/-!
# Names of generated classes

A valid asset has a class name that is an identifier. The script's class has this name in every shape,
and so have the bindings of documents and editor windows. The bindings of a component are named after
the bare asset, which nothing has checked: they have an identifier for a name exactly if the asset's
own name starts like one. Members made for elements are never named like their class, but the fixed
members are, if the asset is named like one of them.
-/

namespace UxmlBindings.Code

/-- A text of the characters of identifiers has the form of an identifier if it starts like one. -/
theorem Identifier.hasForm_append_iff {chars ending : List Char} (hne : chars ≠ [])
    (hchars : chars.all Identifier.isPart = true) (hending : ending.all Identifier.isPart = true) :
    Identifier.hasForm (chars ++ ending) = true ↔ chars.head?.any Identifier.isHead = true := by
  cases chars with
  | nil => exact absurd rfl hne
  | cons first rest =>
    rw [List.all_cons, Bool.and_eq_true] at hchars
    rw [List.cons_append, Identifier.hasForm, List.all_append, hchars.2, hending, Bool.and_self,
      Bool.and_true, List.head?_cons, Option.any_some]

/-- Reserved words are made of small letters. -/
theorem Identifier.isReserved_of_not_isLower {name : String} {c : Char} (hmem : c ∈ name.toList)
    (hc : c.isLower = false) : Identifier.isReserved name = false := by
  have hwords : Identifier.reservedWords.all (fun word => word.toList.all Char.isLower) = true := by
    decide +kernel
  rw [Identifier.isReserved, Bool.eq_false_iff]
  intro hreserved
  have hword := List.all_eq_true.1 hwords name (List.contains_iff_mem.1 hreserved)
  have hlower := List.all_eq_true.1 hword c hmem
  rw [hc] at hlower
  cases hlower

end UxmlBindings.Code

namespace UxmlBindings.Binding

open Code

/-! ## Identifiers -/

/-- The bindings of a component have an identifier for a name if the bare asset starts like one. -/
theorem isValid_append_component {stem : String} (hne : stem ≠ "")
    (hstem : stem.toList.all Identifier.isPart = true) :
    Identifier.isValid (stem ++ "Component") = true ↔
      stem.toList.head?.any Identifier.isHead = true := by
  have hreserved : Identifier.isReserved (stem ++ "Component") = false := by
    refine Identifier.isReserved_of_not_isLower (c := 'C') ?_ (by decide)
    rw [String.toList_append]
    exact List.mem_append_right _ (by decide)
  rw [Identifier.isValid, hreserved, Bool.not_false, Bool.and_true, String.toList_append]
  exact Identifier.hasForm_append_iff (by simpa using hne) hstem (by decide +kernel)

/-- The name of a valid asset has characters of identifiers only. -/
theorem all_isPart_stem {asset : AssetName} (valid : asset.check = .ok ()) :
    asset.stem.toList.all Identifier.isPart = true := by
  obtain ⟨-, hname, -⟩ := asset.check_eq_ok_iff.1 valid
  refine List.all_eq_true.2 fun c hmem => Identifier.isPart_of_mem hname ?_
  rw [AssetName.className, String.toList_append, String.toList_append]
  exact List.mem_append_left _ (List.mem_append_right _ hmem)

/-- For a valid asset the script's class has an identifier for a name. So has the class of the
bindings, unless the shape is a component and the asset's own name does not start with a letter or an
underscore: a prefix may hide this from the check. -/
theorem isValid_classNames_iff {asset : AssetName} (valid : asset.check = .ok ()) (shape : Shape) :
    Identifier.isValid (shape.scriptClass asset) = true ∧
      (Identifier.isValid (shape.bindingsClass asset) = true ↔
        (shape = .component → asset.stem.toList.head?.any Identifier.isHead = true)) := by
  obtain ⟨hne, hname, -⟩ := asset.check_eq_ok_iff.1 valid
  refine ⟨hname, ?_⟩
  cases shape with
  | component =>
    rw [Shape.bindingsClass, isValid_append_component hne (all_isPart_stem valid)]
    exact ⟨fun h _ => h, fun h => h rfl⟩
  | document | editorWindow => exact iff_of_true hname nofun

/-- An asset whose name starts with a digit, behind a prefix. -/
def secondMenu : AssetName where
  stem := "2Menu"
  filePrefix := "UI"

theorem isValid_classNames_iff_secondMenu :
    secondMenu.check = .ok () ∧
      Identifier.isValid (Shape.scriptClass .component secondMenu) = true ∧
      (Identifier.isValid (Shape.bindingsClass .component secondMenu) = true ↔
        (Shape.component = .component →
          secondMenu.stem.toList.head?.any Identifier.isHead = true)) :=
  ⟨by decide +kernel, isValid_classNames_iff (by decide +kernel) .component⟩

/-- The bindings of this asset are in a class that no identifier names. -/
theorem not_isValid_bindingsClass_secondMenu :
    ¬ ∀ (asset : AssetName) (shape : Shape), asset.check = .ok () →
      Identifier.isValid (shape.bindingsClass asset) = true ∧
        Identifier.isValid (shape.scriptClass asset) = true := by
  intro hclaim
  have hvalid : secondMenu.check = .ok () := by decide +kernel
  exact absurd (hclaim secondMenu .component hvalid).1 (by decide +kernel)

/-! ## Members with the name of their class -/

/-- The names of the members that the classes of a shape have whatever the elements are, where the
class is named after the asset in full. -/
def Shape.ownNames : Shape → List String
  | .document => ["_document", "Root", "InitializeDocument", "Awake"]
  | .component => ["_document", "_bindings", "Awake"]
  | .editorWindow => ["Root", "InitializeDocument", "_visualTreeAsset", "CreateGUI"]

/-- Where bindings and script declare one class, its own members are the fixed ones and the script's. -/
theorem ownNames_eq {shape : Shape} (paired : shape ≠ .component) :
    shape.ownNames = shape.fixedNames ++ shape.scriptNames := by
  cases shape with
  | component => exact absurd rfl paired
  | document | editorWindow => rfl

/-- No fixed name is that of a component's bindings. -/
theorem append_component_notMem_fixedNames (shape : Shape) (stem : String) :
    stem ++ "Component" ∉ shape.fixedNames := by
  have hnames : shape.fixedNames.all
      (fun name => !"Component".toList.isSuffixOf name.toList) = true := by
    cases shape <;> decide +kernel
  intro hmem
  have hsuffix : "Component".toList.isSuffixOf (stem ++ "Component").toList = true := by
    rw [String.toList_append]
    exact List.isSuffixOf_iff_suffix.2 (List.suffix_append _ _)
  have hname := List.all_eq_true.1 hnames _ hmem
  rw [hsuffix] at hname
  cases hname

/-- No class has a member of its own name exactly if neither a fixed member of the bindings nor a
member of the script has the name of its class. -/
theorem name_notMem_memberNames_iff {shape : Shape} {asset : AssetName}
    {typed kept : List BoundElement} (hapart : KeptApart shape asset typed kept) :
    (∀ declared ∈ (bindingsFile shape asset kept).classes ++ (shape.scriptFile asset).classes,
        declared.name ∉ declared.memberNames) ↔
      shape.bindingsClass asset ∉ shape.fixedNames ∧
        asset.className ∉ (shape.scriptDeclaration asset).memberNames := by
  have hbindings : (bindingsDeclaration shape asset kept).name = shape.bindingsClass asset := rfl
  have hscript : (shape.scriptDeclaration asset).name = asset.className := by cases shape <;> rfl
  have hreserved : shape.bindingsClass asset ∈ shape.reservedNames asset :=
    mem_reservedNames_iff.2 (.inl rfl)
  rw [bindingsFile, Shape.scriptFile, List.singleton_append, List.forall_mem_cons,
    List.forall_mem_singleton, hbindings, hscript, hapart.mem_memberNames_iff hreserved]

/-- Wherever generation succeeds, no class of the bindings and of the script declares a member with
its own name exactly if the asset's full name is none of the names that the shape's own members have.
Whatever the elements are, no member made for them is named like the class. -/
theorem className_notMem_ownNames_iff {table : ElementTypes} {policy : NamePolicy}
    {elements : List NamedElement} {shape : Shape} {asset : AssetName} {generated : GeneratedText}
    (hgenerated : bindingsOf table policy elements shape asset = .ok generated) :
    ∃ file,
      bindingsTree policy (Selection.ofNamed elements table) shape asset =
        .ok (file, generated.warnings) ∧
      generated.code = file.render ∧
      ((∀ declared ∈ file.classes ++ (shape.scriptFile asset).classes,
          declared.name ∉ declared.memberNames) ↔
        asset.className ∉ shape.ownNames) := by
  obtain ⟨⟨file, warnings⟩, htree, hresult⟩ := bind_eq_ok_iff.1 hgenerated
  obtain rfl := Except.ok.inj hresult
  obtain ⟨kept, hapart, rfl⟩ := exists_keptApart htree
  refine ⟨bindingsFile shape asset kept, htree, ?_, (name_notMem_memberNames_iff hapart).trans ?_⟩
  · dsimp only
  cases shape with
  | component =>
    -- The bindings have a name of their own, so the asset's full name only matters to the script.
    exact and_iff_right (append_component_notMem_fixedNames .component asset.stem)
  | document | editorWindow =>
    rw [memberNames_scriptDeclaration (by decide), ownNames_eq (by decide), List.mem_append, not_or]
    exact Iff.rfl

/-- An asset that is named like the property of the root element. -/
def rootAsset : AssetName where
  stem := "Root"

theorem className_notMem_ownNames_iff_rootAsset :
    ∃ generated,
      bindingsOf .standard .allow crowdedElements .document rootAsset = .ok generated ∧
        ∃ file,
          bindingsTree .allow (Selection.ofNamed crowdedElements .standard) .document rootAsset =
            .ok (file, generated.warnings) ∧
          generated.code = file.render ∧
          ((∀ declared ∈ file.classes ++ (Shape.scriptFile .document rootAsset).classes,
              declared.name ∉ declared.memberNames) ↔
            rootAsset.className ∉ Shape.ownNames .document) := by
  have hvalid : rootAsset.check = .ok () := by decide +kernel
  obtain ⟨generated, hgenerated, -⟩ :=
    bindingsOf_of_check .standard crowdedElements .document hvalid
  exact ⟨generated, hgenerated, className_notMem_ownNames_iff hgenerated⟩

/-- The bindings of this asset are a class with a property of the same name. -/
theorem name_mem_memberNames_rootAsset :
    ¬ ∀ (table : ElementTypes) (policy : NamePolicy) (elements : List NamedElement) (shape : Shape)
      (asset : AssetName) (file : GeneratedFile) (warnings : List Warning), asset.check = .ok () →
      bindingsTree policy (Selection.ofNamed elements table) shape asset = .ok (file, warnings) →
        ∀ declared ∈ file.classes ++ (shape.scriptFile asset).classes,
          declared.name ∉ declared.memberNames := by
  intro hclaim
  have hvalid : rootAsset.check = .ok () := by decide +kernel
  have htree := bindingsTree_allow .standard [] .document rootAsset hvalid
  obtain ⟨kept, hapart, hfile⟩ := exists_keptApart htree
  have hnone := hclaim .standard .allow [] .document rootAsset _ _ hvalid htree
  rw [hfile, name_notMem_memberNames_iff hapart] at hnone
  exact absurd hnone.1 (by decide)

end UxmlBindings.Binding
