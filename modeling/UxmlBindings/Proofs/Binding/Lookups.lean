import UxmlBindings.Proofs.Binding.MemberNames

/-!
# Look-ups by declared name

The generated method looks an element up under its declared name and so comes to the first element
below the root that declares this name. Where the policy rejects shared fields, an element that has
a field is the first one of its name among the elements whose tag has a type. An element whose tag has
none takes part in no field: it can stand before it under the same name, and then a warning tells of
it.
-/

namespace UxmlBindings.Markup

/-- The position in document order of the first element below an element that declares a name, among
those that are counted. -/
def Element.positionAmong? (root : Element) (counted : Element → Bool) (name : String) : Option Nat :=
  root.preorder.findIdx? fun node => node.name? == some name && counted node

/-- The position in document order of the first element below an element that declares a name. -/
def Element.position? (root : Element) (name : String) : Option Nat :=
  root.positionAmong? (fun _ => true) name

end UxmlBindings.Markup

namespace UxmlBindings.Binding

open Code Markup

/-- The assignment to the field for a declared name: of what is looked up under the name, cast to a
type. -/
def lookupAssignment (name typeName : String) : Statement :=
  .assign (.ident (MemberName.field name))
    (.cast typeName (.call (.member (.ident "Root") "Q" true) [.string name]))

/-- What an element of a document is bound as, if it declares a name and its tag has a type. -/
def boundOf? (table : ElementTypes) (node : Element) : Option BoundElement :=
  (NamedElement.ofElement? node).bind (BoundElement.ofNamed? table)

/-- The assignment that is made for an element of a document. -/
def assignmentOf? (table : ElementTypes) (node : Element) : Option Statement :=
  (boundOf? table node).map elementAssignment

/-- Whether the tag of an element has a type. -/
def isTyped (table : ElementTypes) (node : Element) : Bool :=
  (table.typed? node.tag).isSome

section

variable {table : ElementTypes} {node other : Element} {bound : BoundElement} {root : Element}
  {name : String}

/-- An element counts as named under the name that it declares, unless that is empty. -/
theorem ofElement?_eq_some_iff {named : NamedElement} :
    NamedElement.ofElement? node = some named ↔
      ∃ name, node.name? = some name ∧ name ≠ "" ∧ named = .ofName node.tag name := by
  unfold NamedElement.ofElement? Element.isNamed
  cases node.name? with
  | none => simp
  | some name =>
    by_cases hempty : name = ""
    · subst hempty
      simp
    · have hnonempty : (!name.isEmpty) = true := by simpa using hempty
      rw [if_pos hnonempty, Option.map_some, Option.some.injEq]
      constructor
      · rintro rfl
        exact ⟨name, rfl, hempty, rfl⟩
      · rintro ⟨_, hname, -, rfl⟩
        rw [Option.some.inj hname]

/-- An element is bound under the name that it declares, to the type of its tag. -/
theorem boundOf?_eq_some_iff :
    boundOf? table node = some bound ↔
      ∃ name typeName, node.name? = some name ∧ name ≠ "" ∧
        table.typed? node.tag = some ⟨node.tag, typeName⟩ ∧
        bound = ⟨.ofName node.tag name, ⟨node.tag, typeName⟩⟩ := by
  rw [boundOf?, Option.bind_eq_some_iff]
  constructor
  · rintro ⟨named, hnamed, hbound⟩
    obtain ⟨name, hname, hne, rfl⟩ := ofElement?_eq_some_iff.1 hnamed
    obtain ⟨typeName, htyped, rfl⟩ := (ofNamed?_eq_some_iff table).1 hbound
    exact ⟨name, typeName, hname, hne, htyped, rfl⟩
  · rintro ⟨name, typeName, hname, hne, htyped, rfl⟩
    exact ⟨_, ofElement?_eq_some_iff.2 ⟨name, hname, hne, rfl⟩,
      (ofNamed?_eq_some_iff table).2 ⟨typeName, htyped, rfl⟩⟩

/-- The bound elements of a document are bound one by one, in document order. -/
theorem elements_ofDocument (root : Element) (table : ElementTypes) :
    (Selection.ofDocument root table).elements = root.preorder.filterMap (boundOf? table) := by
  rw [Selection.ofDocument, Selection.ofNamed, namedElements, Element.descendants_eq_preorder]
  exact List.filterMap_filterMap

/-- An element with a name whose tag has no type is reported. -/
theorem untypedTag_mem_ofDocument (hmem : other ∈ root.preorder) (hname : other.name? = some name)
    (hne : name ≠ "") (hnone : table.typed? other.tag = none) :
    .untypedTag other.tag name ∈ (Selection.ofDocument root table).warnings := by
  refine List.mem_append_left _ (List.mem_filterMap.2 ⟨.ofName other.tag name, ?_, ?_⟩)
  · rw [namedElements, Element.descendants_eq_preorder]
    exact List.mem_filterMap.2 ⟨other, hmem, ofElement?_eq_some_iff.2 ⟨name, hname, hne, rfl⟩⟩
  · rw [untypedWarning?]
    dsimp only [NamedElement.ofName]
    rw [hnone]

/-- Where the policy rejects collisions, sifting keeps every element or fails. -/
theorem eq_of_sift_reject {surroundings : Surroundings} {slots : List (String × String)}
    {elements kept : List BoundElement} {clashes : List Warning}
    (hsift : surroundings.sift .reject slots elements = .ok (kept, clashes)) : kept = elements := by
  induction elements generalizing slots kept clashes with
  | nil =>
    simp only [Surroundings.sift, Except.ok.injEq, Prod.mk.injEq] at hsift
    exact hsift.1.symm
  | cons element rest ih =>
    cases hclash : surroundings.clash? slots element with
    | some member => simp [Surroundings.sift, hclash] at hsift
    | none =>
      simp only [Surroundings.sift, hclash] at hsift
      obtain ⟨⟨others, more⟩, hrest, heq⟩ := bind_eq_ok_iff.1 hsift
      simp only [pure, Except.pure, Except.ok.injEq, Prod.mk.injEq] at heq
      rw [← heq.1, ih hrest]

/-- Two elements with one name are bound to one field, which is reported. -/
theorem sharedField_mem_of_names {first second : BoundElement}
    (hpair : [first, second].Sublist (root.preorder.filterMap (boundOf? table)))
    (hnames : first.fieldName = second.fieldName) :
    ∃ fieldName declaredNames,
      .sharedField fieldName declaredNames ∈ (Selection.ofDocument root table).warnings := by
  rw [← elements_ofDocument] at hpair
  obtain ⟨declaredNames, -, -, hwarning⟩ := sharedField_mem_of_pair hpair hnames
  exact ⟨_, declaredNames, List.mem_append_right _ hwarning⟩

/-- If no field is shared, all other elements that declare the name of a bound element have tags
without a type. -/
theorem typed?_eq_none_of_name {before after : List Element} {typeName : String}
    (hunshared : ∀ fieldName declaredNames,
      .sharedField fieldName declaredNames ∉ (Selection.ofDocument root table).warnings)
    (hsplit : root.preorder = before ++ node :: after) (hname : node.name? = some name)
    (hne : name ≠ "") (htyped : table.typed? node.tag = some ⟨node.tag, typeName⟩)
    (hother : other ∈ before ++ after) (hsame : other.name? = some name) :
    table.typed? other.tag = none := by
  by_contra htypedOther
  obtain ⟨⟨tag, otherType⟩, hfound⟩ := Option.ne_none_iff_exists'.1 htypedOther
  have hbound : boundOf? table node = some ⟨.ofName node.tag name, ⟨node.tag, typeName⟩⟩ :=
    boundOf?_eq_some_iff.2 ⟨name, typeName, hname, hne, htyped, rfl⟩
  have hboundOther : boundOf? table other =
      some ⟨.ofName other.tag name, ⟨other.tag, otherType⟩⟩ := by
    obtain rfl : tag = other.tag := ElementTypes.tag_of_typed? hfound
    exact boundOf?_eq_some_iff.2 ⟨name, otherType, hsame, hne, hfound, rfl⟩
  obtain ⟨fieldName, declaredNames, hwarning⟩ : ∃ fieldName declaredNames,
      .sharedField fieldName declaredNames ∈ (Selection.ofDocument root table).warnings := by
    rcases List.mem_append.1 hother with hbefore | hafter
    · have hpair : [other, node].Sublist root.preorder := by
        rw [hsplit]
        exact (List.singleton_sublist.2 hbefore).append (List.singleton_sublist.2 (by simp))
      have hbounds := hpair.filterMap (boundOf? table)
      rw [List.filterMap_cons_some hboundOther, List.filterMap_cons_some hbound] at hbounds
      exact sharedField_mem_of_names hbounds rfl
    · have hpair : [node, other].Sublist root.preorder := by
        rw [hsplit]
        exact ((List.singleton_sublist.2 hafter).cons_cons node).trans
          (List.sublist_append_right before _)
      have hbounds := hpair.filterMap (boundOf? table)
      rw [List.filterMap_cons_some hbound, List.filterMap_cons_some hboundOther] at hbounds
      exact sharedField_mem_of_names hbounds rfl
  exact hunshared fieldName declaredNames hwarning

/-- A counted element is the first of its name if no element before it that declares the name is
counted. -/
theorem positionAmong?_eq_some {before after : List Element} {counted : Element → Bool}
    (hsplit : root.preorder = before ++ node :: after) (hname : node.name? = some name)
    (hcounted : counted node = true)
    (hfirst : ∀ other ∈ before, other.name? = some name → counted other = false) :
    root.positionAmong? counted name = some before.length := by
  have hbefore : before.findIdx? (fun node => node.name? == some name && counted node) = none := by
    rw [List.findIdx?_eq_none_iff]
    intro other hother
    by_cases hsame : other.name? = some name
    · rw [hfirst other hother hsame, Bool.and_false]
    · rw [beq_false_of_ne hsame, Bool.false_and]
  rw [Element.positionAmong?, hsplit, List.findIdx?_append, hbefore, List.findIdx?_cons]
  simp [hname, hcounted]

end

/-- The look-up that an assignment makes for the element after some others: that element is the
first of its name among those whose tag has a type, and the first of all, unless one before it has a
tag without a type, of which a warning tells. -/
structure Reaches (table : ElementTypes) (root : Element) (warnings : List Warning)
    (before : List Element) (node : Element) (name typeName : String) : Prop where
  declares : node.name? = some name
  typed : table.typed? node.tag = some ⟨node.tag, typeName⟩
  firstTyped : root.positionAmong? (isTyped table) name = some before.length
  first : root.position? name = some before.length ∨
    ∃ other ∈ before, other.name? = some name ∧ table.typed? other.tag = none ∧
      .untypedTag other.tag name ∈ warnings

/-- Where the policy rejects shared fields, bindings are only generated if the look-up of every
assignment comes to the element that the field was made for, apart from elements whose tag has no
type and that are reported. -/
theorem documentBindings_reject_lookups (table : ElementTypes) (root : Element) (shape : Shape)
    (asset : AssetName) {generated : GeneratedText}
    (hrun : documentBindings table .reject root shape asset = .ok generated) :
    ∃ file declaration,
      bindingsTree .reject (Selection.ofDocument root table) shape asset =
        .ok (file, generated.warnings) ∧
      generated.code = file.render ∧
      file.classes = [declaration] ∧
      .method { name := "InitializeDocument", body := root.preorder.filterMap (assignmentOf? table) } ∈
        declaration.members ∧
      ∀ before node after statement, root.preorder = before ++ node :: after →
        assignmentOf? table node = some statement →
        ∃ name typeName, statement = lookupAssignment name typeName ∧
          Reaches table root generated.warnings before node name typeName := by
  obtain ⟨⟨file, warnings⟩, htree, hresult⟩ := bind_eq_ok_iff.1 hrun
  simp only [pure, Except.pure, Except.ok.injEq] at hresult
  subst hresult
  obtain ⟨haccept, kept, clashes, hsift, rfl, rfl⟩ := bindingsTree_eq_ok htree
  obtain rfl := eq_of_sift_reject hsift
  refine ⟨_, bindingsDeclaration shape asset (Selection.ofDocument root table).elements, htree, ?_,
    rfl, ?_, ?_⟩
  · dsimp only
  · have hbody : root.preorder.filterMap (assignmentOf? table) =
        (Selection.ofDocument root table).elements.map elementAssignment := by
      rw [elements_ofDocument, List.map_filterMap]
      rfl
    rw [hbody]
    exact List.mem_append_right _ (List.mem_singleton.2 rfl)
  · intro before node after statement hsplit hstatement
    obtain ⟨bound, hbound, rfl⟩ := Option.map_eq_some_iff.1 hstatement
    obtain ⟨name, typeName, hname, hne, htyped, rfl⟩ := boundOf?_eq_some_iff.1 hbound
    have hunshared := not_sharedField_of_accept haccept
    have hothers (other : Element) (hother : other ∈ before) (hsame : other.name? = some name) :
        table.typed? other.tag = none :=
      typed?_eq_none_of_name hunshared hsplit hname hne htyped (List.mem_append_left _ hother) hsame
    have htypedNode : isTyped table node = true := by rw [isTyped, htyped]; rfl
    refine ⟨name, typeName, rfl, hname, htyped, ?_, ?_⟩
    · refine positionAmong?_eq_some hsplit hname htypedNode fun other hother hsame => ?_
      rw [isTyped, hothers other hother hsame]
      rfl
    · by_cases hfirst : ∃ other ∈ before, other.name? = some name
      · obtain ⟨other, hother, hsame⟩ := hfirst
        have hnone := hothers other hother hsame
        have hmem : other ∈ root.preorder := hsplit ▸ List.mem_append_left _ hother
        exact .inr ⟨other, hother, hsame, hnone, List.mem_append_left _
          (untypedTag_mem_ofDocument hmem hsame hne hnone)⟩
      · exact .inl (positionAmong?_eq_some hsplit hname rfl fun other hother hsame =>
          absurd ⟨other, hother, hsame⟩ hfirst)

/-- An element whose tag has no type. -/
def gaugeElement : Element where
  tag := "Gauge"
  attributes := ({} : Attributes).insert "name" "fuel"

/-- An element with the same name whose tag has a type. -/
def labelElement : Element where
  tag := "Label"
  attributes := ({} : Attributes).insert "name" "fuel"

/-- A document in which the one stands before the other. -/
def twinDocument : Element where
  tag := "UXML"
  children := [gaugeElement, labelElement]

/-- What is generated for this document where the policy rejects shared fields. -/
def twinText : GeneratedText where
  className := "Menu"
  code := (bindingsFile .document { stem := "Menu" }
    [⟨.ofName "Label" "fuel", ⟨"Label", "Label"⟩⟩]).render
  warnings := [.untypedTag "Gauge" "fuel"]

theorem documentBindings_twinDocument :
    documentBindings .standard .reject twinDocument .document { stem := "Menu" } = .ok twinText := by
  have hcheck : AssetName.check { stem := "Menu" } = .ok () := by decide +kernel
  have haccept : NamePolicy.accept .reject (Selection.ofDocument twinDocument .standard).warnings =
      .ok [.untypedTag "Gauge" "fuel"] := by
    decide +kernel
  have hkeep : keepUnreserved .reject .document { stem := "Menu" }
      (Selection.ofDocument twinDocument .standard).elements =
        .ok ([⟨.ofName "Label" "fuel", ⟨"Label", "Label"⟩⟩], []) := by
    decide +kernel
  -- The text is not evaluated: it is that of the same file on both sides.
  rw [documentBindings, renderSelection, bindingsTree, hcheck]
  dsimp only
  rw [haccept, hkeep]
  rfl

theorem documentBindings_reject_lookups_twin :
    documentBindings .standard .reject twinDocument .document { stem := "Menu" } = .ok twinText ∧
      ∃ file declaration,
        bindingsTree .reject (Selection.ofDocument twinDocument .standard) .document
          { stem := "Menu" } = .ok (file, twinText.warnings) ∧
        twinText.code = file.render ∧
        file.classes = [declaration] ∧
        .method
          { name := "InitializeDocument"
            body := twinDocument.preorder.filterMap (assignmentOf? .standard) } ∈
          declaration.members ∧
        ∀ before node after statement, twinDocument.preorder = before ++ node :: after →
          assignmentOf? .standard node = some statement →
          ∃ name typeName, statement = lookupAssignment name typeName ∧
            Reaches .standard twinDocument twinText.warnings before node name typeName :=
  ⟨documentBindings_twinDocument,
    documentBindings_reject_lookups .standard twinDocument .document { stem := "Menu" }
      documentBindings_twinDocument⟩

/-- The look-up of the label's name comes to the element before it, whose tag has no type. So not
every assignment looks up the element that its field was made for. -/
theorem lookup_misses_twin :
    ¬ ∀ (table : ElementTypes) (root : Element) (shape : Shape) (asset : AssetName)
      (generated : GeneratedText),
      documentBindings table .reject root shape asset = .ok generated →
        ∀ before node after statement, root.preorder = before ++ node :: after →
          assignmentOf? table node = some statement →
          ∃ name typeName, statement = lookupAssignment name typeName ∧
            root.position? name = some before.length := by
  intro hclaim
  have hbound : boundOf? .standard labelElement =
      some ⟨.ofName "Label" "fuel", ⟨"Label", "Label"⟩⟩ := by
    decide +kernel
  have hassigned : assignmentOf? .standard labelElement = some (lookupAssignment "fuel" "Label") :=
    congrArg (Option.map elementAssignment) hbound
  obtain ⟨name, typeName, hstatement, hposition⟩ :=
    hclaim .standard twinDocument .document { stem := "Menu" } twinText
      documentBindings_twinDocument [gaugeElement] labelElement [] _ rfl hassigned
  obtain rfl : "fuel" = name := by
    simp only [lookupAssignment, Statement.assign.injEq, Expression.cast.injEq,
      Expression.call.injEq, List.cons.injEq, Expression.string.injEq] at hstatement
    exact hstatement.2.2.2.1
  exact absurd hposition (by decide +kernel)

end UxmlBindings.Binding
