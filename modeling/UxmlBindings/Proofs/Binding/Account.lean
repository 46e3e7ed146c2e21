import UxmlBindings.Proofs.Binding.Groups
import UxmlBindings.Proofs.Binding.Sifting

/-!
# The account of a document's named elements

Every named element below the root has one fate: its tag has no type, its members collide, or it is
bound. An account lists the elements in document order with their fates, and `IsAccount` says what
decides a fate: the type table and the elements bound before. Every warning and every member of the
generated class can be read off such an account, so that no element is lost, doubled or moved on
the way.
-/

namespace UxmlBindings.Binding

open Code Markup

/-- What becomes of a named element. -/
inductive Fate where
  /-- Its tag has no type. -/
  | untyped
  /-- Its members collide, under the given name. -/
  | colliding (member : String)
  /-- It has members, of the given type. -/
  | bound (typeName : String)

/-- Named elements in document order with what becomes of them. -/
abbrev Account := List (NamedElement × Fate)

namespace Account

/-- The element of an entry, bound to its type, if it has members. -/
def boundOf : NamedElement × Fate → Option BoundElement
  | (element, .bound typeName) => some ⟨element, ⟨element.tag, typeName⟩⟩
  | _ => none

/-- The warning that an entry without a type stands for. -/
def untypedWarning : NamedElement × Fate → Option Warning
  | (element, .untyped) => some (.untypedTag element.tag element.declaredName)
  | _ => none

/-- The warning that a colliding entry stands for. -/
def collisionWarning : NamedElement × Fate → Option Warning
  | (element, .colliding member) => some (.takenMember member element.declaredName)
  | _ => none

/-- The private field of a bound entry. -/
def field : NamedElement × Fate → Option Member
  | (element, .bound typeName) =>
    some (.field { visibility := .owner, typeName, name := element.fieldName })
  | _ => none

/-- The public property of a bound entry, which returns its field. -/
def property : NamedElement × Fate → Option Member
  | (element, .bound typeName) =>
    some (.property
      { visibility := .everyone, typeName, name := element.propertyName,
        body := .arrow (.ident element.fieldName) })
  | _ => none

/-- The assignment of a bound entry: its field gets the element of its declared name, cast to its
type. -/
def assignment : NamedElement × Fate → Option Statement
  | (element, .bound typeName) =>
    some (.assign (.ident element.fieldName)
      (.cast typeName (.call (.member (.ident "Root") "Q" true) [.string element.declaredName])))
  | _ => none

/-- The elements whose tag has a type, whether or not they are bound. -/
def typedElements (table : ElementTypes) (elements : List NamedElement) : List NamedElement :=
  elements.filter fun element => (table.typed? element.tag).isSome

/-- The elements that have members. -/
def boundElements (account : Account) : List NamedElement :=
  (account.filterMap boundOf).map (·.named)

/-- The element of the first entry comes first if it has members. -/
theorem boundElements_cons (entry : NamedElement × Fate) (account : Account) :
    boundElements (entry :: account) =
      (boundOf entry).toList.map (·.named) ++ boundElements account := by
  unfold boundElements
  cases hentry : boundOf entry with
  | none => rw [List.filterMap_cons_none hentry, Option.toList_none, List.map_nil, List.nil_append]
  | some bound =>
    rw [List.filterMap_cons_some hentry, Option.toList_some, List.map_cons, List.map_cons,
      List.map_nil, List.singleton_append]

end Account

/-- What decides the fate of an element, given the elements that have a type and those that were
bound before it. -/
def Fate.Decided (table : ElementTypes) (shape : Shape) (asset : AssetName)
    (typed earlier : List NamedElement) (element : NamedElement) : Fate → Prop
  | .untyped => table.typed? element.tag = none
  | .colliding member =>
    (table.typed? element.tag).isSome ∧ Collides shape asset typed earlier element member
  | .bound typeName =>
    table.typed? element.tag = some ⟨element.tag, typeName⟩ ∧
      ∀ member, ¬ Collides shape asset typed earlier element member

/-- The fate of every element of an account is decided by the type table and by what the account
says of the elements before it. -/
def IsAccount (table : ElementTypes) (shape : Shape) (asset : AssetName) (account : Account) : Prop :=
  ∀ before element fate after, account = before ++ (element, fate) :: after →
    fate.Decided table shape asset (Account.typedElements table (account.map (·.1)))
      (Account.boundElements before) element

/-- The account of elements that follow the given bound ones. -/
def accountFrom (table : ElementTypes) (surroundings : Surroundings) :
    List BoundElement → List NamedElement → Account
  | _, [] => []
  | earlier, element :: rest =>
    match BoundElement.ofNamed? table element with
    | none => (element, .untyped) :: accountFrom table surroundings earlier rest
    | some bound =>
      match surroundings.clash? (earlier.map BoundElement.slot) bound with
      | some member => (element, .colliding member) :: accountFrom table surroundings earlier rest
      | none =>
        (element, .bound bound.binding.typeName) ::
          accountFrom table surroundings (earlier ++ [bound]) rest

section

variable (table : ElementTypes) (surroundings : Surroundings)

/-- An element that can be bound carries itself and the entry of its tag. -/
theorem ofNamed?_eq_some_iff {element : NamedElement} {bound : BoundElement} :
    BoundElement.ofNamed? table element = some bound ↔
      ∃ typeName, table.typed? element.tag = some ⟨element.tag, typeName⟩ ∧
        bound = ⟨element, ⟨element.tag, typeName⟩⟩ := by
  simp only [BoundElement.ofNamed?, Option.map_eq_some_iff]
  constructor
  · rintro ⟨⟨tag, typeName⟩, hfound, rfl⟩
    obtain rfl : tag = element.tag := ElementTypes.tag_of_typed? hfound
    exact ⟨typeName, hfound, rfl⟩
  · rintro ⟨typeName, hfound, rfl⟩
    exact ⟨⟨element.tag, typeName⟩, hfound, rfl⟩

/-- An element can be bound unless its tag has no type. -/
theorem ofNamed?_eq_none_iff {element : NamedElement} :
    BoundElement.ofNamed? table element = none ↔ table.typed? element.tag = none := by
  simp [BoundElement.ofNamed?]

/-- Every element has one entry, in its place. -/
theorem accountFrom_elements (earlier : List BoundElement) (elements : List NamedElement) :
    (accountFrom table surroundings earlier elements).map (·.1) = elements := by
  induction elements generalizing earlier with
  | nil => rfl
  | cons element rest ih =>
    unfold accountFrom
    split
    · simp [ih]
    · split <;> simp [ih]

/-- The entries without a type stand for the warnings about tags. -/
theorem accountFrom_untyped (earlier : List BoundElement) (elements : List NamedElement) :
    (accountFrom table surroundings earlier elements).filterMap Account.untypedWarning =
      elements.filterMap (untypedWarning? table) := by
  induction elements generalizing earlier with
  | nil => rfl
  | cons element rest ih =>
    unfold accountFrom
    split
    · rename_i hnone
      have hwarning : untypedWarning? table element =
          some (.untypedTag element.tag element.declaredName) := by
        rw [untypedWarning?, (ofNamed?_eq_none_iff table).1 hnone]
      rw [List.filterMap_cons_some hwarning, ← ih earlier]
      rfl
    · rename_i bound hsome
      obtain ⟨typeName, htyped, rfl⟩ := (ofNamed?_eq_some_iff table).1 hsome
      have hwarning : untypedWarning? table element = none := by
        rw [untypedWarning?, htyped]
      rw [List.filterMap_cons_none hwarning]
      split
      · rw [List.filterMap_cons_none rfl, ih]
      · rw [List.filterMap_cons_none rfl, ih]

/-- Without rejection, sifting keeps the bound entries and warns about the colliding ones. -/
theorem sift_eq_accountFrom (earlier : List BoundElement) (elements : List NamedElement) :
    surroundings.sift .allow (earlier.map BoundElement.slot)
        (elements.filterMap (BoundElement.ofNamed? table)) =
      .ok ((accountFrom table surroundings earlier elements).filterMap Account.boundOf,
        (accountFrom table surroundings earlier elements).filterMap Account.collisionWarning) := by
  induction elements generalizing earlier with
  | nil => rfl
  | cons element rest ih =>
    unfold accountFrom
    split
    · rename_i hnone
      rw [List.filterMap_cons_none hnone, ih]
      rfl
    · rename_i bound hsome
      obtain ⟨typeName, -, hbound⟩ := (ofNamed?_eq_some_iff table).1 hsome
      have hentry : Account.boundOf (element, .bound bound.binding.typeName) = some bound := by
        rw [hbound, Account.boundOf]
      rw [List.filterMap_cons_some hsome]
      split
      · rename_i member hclash
        have helement : bound.named = element := by rw [hbound]
        simp only [Surroundings.sift, hclash, ih, helement]
        rfl
      · rename_i hclash
        rw [List.filterMap_cons_some hentry]
        simp only [Surroundings.sift, hclash, slots_concat, ih]
        rfl

/-- The elements whose tag has a type are those that can be bound. -/
theorem typedElements_eq (elements : List NamedElement) :
    Account.typedElements table elements =
      (elements.filterMap (BoundElement.ofNamed? table)).map (·.named) := by
  induction elements with
  | nil => rfl
  | cons element rest ih =>
    cases hbound : BoundElement.ofNamed? table element with
    | none =>
      have hnone := (ofNamed?_eq_none_iff table).1 hbound
      rw [List.filterMap_cons_none hbound, ← ih]
      simp [Account.typedElements, hnone]
    | some bound =>
      obtain ⟨typeName, htyped, heq⟩ := (ofNamed?_eq_some_iff table).1 hbound
      rw [List.filterMap_cons_some hbound, List.map_cons, ← ih, heq]
      simp [Account.typedElements, htyped]

end

/-- The first entry of an account is decided by the elements bound before, and the other entries
follow once the element is counted among these if it is bound. -/
theorem accountFrom_cons (table : ElementTypes) (shape : Shape) (asset : AssetName)
    (typed earlier : List BoundElement) (first : NamedElement) (rest : List NamedElement) :
    ∃ fate : Fate,
      fate.Decided table shape asset (typed.map (·.named)) (earlier.map (·.named)) first ∧
        accountFrom table (surroundings shape asset typed) earlier (first :: rest) =
          (first, fate) :: accountFrom table (surroundings shape asset typed)
            (earlier ++ (Account.boundOf (first, fate)).toList) rest := by
  cases hbound : BoundElement.ofNamed? table first with
  | none =>
    refine ⟨.untyped, (ofNamed?_eq_none_iff table).1 hbound, ?_⟩
    simp only [accountFrom, hbound, Account.boundOf, Option.toList_none, List.append_nil]
  | some bound =>
    obtain ⟨typeName, htyped, rfl⟩ := (ofNamed?_eq_some_iff table).1 hbound
    cases hclash : (surroundings shape asset typed).clash? (earlier.map BoundElement.slot)
        ⟨first, ⟨first.tag, typeName⟩⟩ with
    | some member =>
      have hcollides := (clash?_eq_some_iff shape asset typed earlier _ member).1 hclash
      refine ⟨.colliding member, ⟨by rw [htyped]; rfl, hcollides⟩, ?_⟩
      simp only [accountFrom, hbound, hclash, Account.boundOf, Option.toList_none, List.append_nil]
    | none =>
      have hfree := (clash?_eq_none_iff shape asset typed earlier _).1 hclash
      refine ⟨.bound typeName, ⟨htyped, hfree⟩, ?_⟩
      simp only [accountFrom, hbound, hclash, Account.boundOf, Option.toList_some]

/-- Each entry of an account is decided by what precedes it. -/
theorem accountFrom_decided (table : ElementTypes) (shape : Shape) (asset : AssetName)
    (typed earlier : List BoundElement) (elements : List NamedElement)
    {before after : Account} {element : NamedElement} {fate : Fate}
    (hsplit : accountFrom table (surroundings shape asset typed) earlier elements =
      before ++ (element, fate) :: after) :
    fate.Decided table shape asset (typed.map (·.named))
      (earlier.map (·.named) ++ Account.boundElements before) element := by
  induction elements generalizing earlier before with
  | nil => simp [accountFrom] at hsplit
  | cons first rest ih =>
    obtain ⟨other, hdecided, hstep⟩ :=
      accountFrom_cons table shape asset typed earlier first rest
    rw [hstep] at hsplit
    cases before with
    | nil =>
      obtain ⟨hentry, -⟩ := List.cons.inj hsplit
      obtain ⟨rfl, rfl⟩ := Prod.mk.inj hentry
      rw [Account.boundElements, List.filterMap_nil, List.map_nil, List.append_nil]
      exact hdecided
    | cons entry before =>
      obtain ⟨rfl, hrest⟩ := List.cons.inj hsplit
      have hlater := ih _ hrest
      rw [List.map_append, List.append_assoc, ← Account.boundElements_cons] at hlater
      exact hlater

/-- Without rejection every warning is accepted. -/
theorem accept_allow (warnings : List Warning) : NamePolicy.allow.accept warnings = .ok warnings := by
  induction warnings with
  | nil => rfl
  | cons warning rest ih =>
    simp only [NamePolicy.accept, ih]
    rfl

/-- The named elements are the descendants with a name that is not empty, in recursive order. -/
theorem namedElements_eq (root : Element) :
    namedElements root = (root.preorder.filter (·.isNamed)).map fun node =>
      NamedElement.ofName node.tag (node.name?.getD "") := by
  rw [namedElements, Element.descendants_eq_preorder]
  induction root.preorder with
  | nil => rfl
  | cons node rest ih =>
    by_cases hnamed : node.isNamed = true
    · obtain ⟨name, hname⟩ : ∃ name, node.name? = some name := by
        cases hname : node.name? with
        | none => simp [Element.isNamed, hname] at hnamed
        | some name => exact ⟨name, rfl⟩
      have hentry : NamedElement.ofElement? node =
          some (NamedElement.ofName node.tag (node.name?.getD "")) := by
        simp [NamedElement.ofElement?, hnamed, hname]
      rw [List.filterMap_cons_some hentry, List.filter_cons_of_pos hnamed, List.map_cons, ih]
    · have hentry : NamedElement.ofElement? node = none := by
        simp [NamedElement.ofElement?, hnamed]
      rw [List.filterMap_cons_none hentry, List.filter_cons_of_neg hnamed, ih]

/-- What is made of the bound elements is what is made of their entries. -/
theorem map_boundOf {α : Type} {make : BoundElement → α} {part : NamedElement × Fate → Option α}
    (hbound : ∀ element typeName,
      part (element, .bound typeName) = some (make ⟨element, ⟨element.tag, typeName⟩⟩))
    (huntyped : ∀ element, part (element, .untyped) = none)
    (hcolliding : ∀ element member, part (element, .colliding member) = none) (account : Account) :
    (account.filterMap Account.boundOf).map make = account.filterMap part := by
  induction account with
  | nil => rfl
  | cons entry rest ih =>
    rcases entry with ⟨element, _ | member | typeName⟩
    · rw [List.filterMap_cons_none rfl, List.filterMap_cons_none (huntyped element), ih]
    · rw [List.filterMap_cons_none rfl, List.filterMap_cons_none (hcolliding element member), ih]
    · have hentry : Account.boundOf (element, .bound typeName) =
          some ⟨element, ⟨element.tag, typeName⟩⟩ := rfl
      rw [List.filterMap_cons_some hentry, List.filterMap_cons_some (hbound element typeName),
        List.map_cons, ih]

/-- The account of a list of elements. -/
def accountOf (table : ElementTypes) (shape : Shape) (asset : AssetName)
    (elements : List NamedElement) : Account :=
  accountFrom table
    (surroundings shape asset (elements.filterMap (BoundElement.ofNamed? table))) [] elements

/-- The account of a list of elements is one. -/
theorem isAccount_accountOf (table : ElementTypes) (shape : Shape) (asset : AssetName)
    (elements : List NamedElement) :
    IsAccount table shape asset (accountOf table shape asset elements) := by
  intro before element fate after hsplit
  rw [accountOf, accountFrom_elements, typedElements_eq]
  simpa using accountFrom_decided table shape asset _ [] elements hsplit

/-- Without rejection the tree of the bindings is read off the account of the elements. -/
theorem bindingsTree_allow (table : ElementTypes) (elements : List NamedElement) (shape : Shape)
    (asset : AssetName) (valid : asset.check = .ok ()) :
    bindingsTree .allow (Selection.ofNamed elements table) shape asset =
      .ok (bindingsFile shape asset
          ((accountOf table shape asset elements).filterMap Account.boundOf),
        (accountOf table shape asset elements).filterMap Account.untypedWarning ++
          sharedFieldWarnings
            ((elements.filterMap (BoundElement.ofNamed? table)).map (·.named)) ++
          (accountOf table shape asset elements).filterMap Account.collisionWarning) := by
  have hsift := sift_eq_accountFrom table
    (surroundings shape asset (elements.filterMap (BoundElement.ofNamed? table))) [] elements
  rw [List.map_nil] at hsift
  rw [bindingsTree, valid]
  simp only [accept_allow, keepUnreserved, Selection.ofNamed, hsift, accountOf, accountFrom_untyped]
  rfl

/-- An account of a document, read off its bindings: the warnings and the members of the one class
are those of the entries, beside warnings about shared fields and the fixed members of the shape. -/
structure Accounts (table : ElementTypes) (root : Element) (shape : Shape) (asset : AssetName)
    (account : Account) (shared : List Warning) (file : GeneratedFile)
    (declaration : GeneratedClass) : Prop where
  elements : account.map (·.1) = (root.preorder.filter (·.isNamed)).map
    fun node => NamedElement.ofName node.tag (node.name?.getD "")
  decided : IsAccount table shape asset account
  tree : bindingsTree .allow (Selection.ofDocument root table) shape asset =
    .ok (file, account.filterMap Account.untypedWarning ++ shared ++
      account.filterMap Account.collisionWarning)
  text : documentBindings table .allow root shape asset =
    .ok
      { className := shape.bindingsClass asset
        code := file.render
        warnings := account.filterMap Account.untypedWarning ++ shared ++
          account.filterMap Account.collisionWarning }
  sharedOnly : ∀ warning ∈ shared, ∃ fieldName declaredNames,
    warning = .sharedField fieldName declaredNames
  classes : file.classes = [declaration]
  members : declaration.members =
    (shape.documentMember?.map Member.field).toList ++
      account.filterMap Account.field ++
      (shape.constructorMember?.map Member.constructor).toList ++
      [.property
        { typeName := "VisualElement", name := "Root", body := .getter shape.rootExpression }] ++
      (if shape = .component then account.filterMap Account.property else []) ++
      [.method { name := "InitializeDocument", body := account.filterMap Account.assignment }]

/-- Without rejection a document has bindings for every valid asset. Their warnings and members
account for every named element below the root exactly once, in document order. -/
theorem documentBindings_account (table : ElementTypes) (root : Element) (shape : Shape)
    (asset : AssetName) (valid : asset.check = .ok ()) :
    ∃ account shared file declaration,
      Accounts table root shape asset account shared file declaration := by
  let account := accountOf table shape asset (namedElements root)
  have htree := bindingsTree_allow table (namedElements root) shape asset valid
  refine ⟨account, _, _, bindingsDeclaration shape asset (account.filterMap Account.boundOf),
    ⟨?_, isAccount_accountOf table shape asset _, htree, ?_,
      fun warning hmem => eq_sharedField_of_mem hmem, rfl, ?_⟩⟩
  · rw [← namedElements_eq]
    exact accountFrom_elements table _ [] _
  · rw [documentBindings, renderSelection, Selection.ofDocument, htree]
    rfl
  · change bindingsMembers shape (account.filterMap Account.boundOf) = _
    have hfield : (account.filterMap Account.boundOf).map (fun element =>
        Member.field (elementField element)) = account.filterMap Account.field :=
      map_boundOf (fun _ _ => rfl) (fun _ => rfl) (fun _ _ => rfl) account
    have hproperty : (account.filterMap Account.boundOf).map (fun element =>
        Member.property (elementProperty element)) = account.filterMap Account.property :=
      map_boundOf (fun _ _ => rfl) (fun _ => rfl) (fun _ _ => rfl) account
    have hassignment : (account.filterMap Account.boundOf).map elementAssignment =
        account.filterMap Account.assignment :=
      map_boundOf (fun _ _ => rfl) (fun _ => rfl) (fun _ _ => rfl) account
    rw [bindingsMembers, hfield, hproperty, hassignment]
    cases shape <;> rfl

/-- A document in which a nested element shares the property of its parent under another field, one
tag has no type, and one property is reserved. -/
def crowdedDocument : Element where
  tag := "UXML"
  children :=
    [{ tag := "Button"
       attributes := ({} : Attributes).insert "name" "play-now"
       children := [{ tag := "Label", attributes := ({} : Attributes).insert "name" "playNow" }] },
     { tag := "Gauge", attributes := ({} : Attributes).insert "name" "Fuel" },
     { tag := "Toggle", attributes := ({} : Attributes).insert "name" "root" }]

theorem documentBindings_account_crowded :
    AssetName.check { stem := "Menu" } = .ok () ∧
      ∃ account shared file declaration,
        Accounts .standard crowdedDocument .component { stem := "Menu" } account shared file
          declaration :=
  ⟨by decide +kernel,
    documentBindings_account .standard crowdedDocument .component { stem := "Menu" }
      (by decide +kernel)⟩

example :
    (documentBindings .standard .allow crowdedDocument .component { stem := "Menu" }).toOption.map
        (·.warnings) =
      some [.untypedTag "Gauge" "Fuel", .takenMember "PlayNow" "playNow",
        .takenMember "Root" "root"] := by
  decide +kernel

end UxmlBindings.Binding
