import UxmlBindings.Proofs.Binding.Account

/-!
# What bindings depend on

All that the bindings of a document depend on is its declarations: the tags and the names of the
elements that declare a name, in document order. Documents with the same declarations have the same
bindings, whatever else is in them, and documents with different ones are told apart, if only by the
warnings that they get where no tag has a type.
-/

namespace UxmlBindings.Binding

open Code Markup

/-- The tag of an element with the name that it declares. An empty name counts as none. -/
def declaration? (node : Element) : Option (String × String) :=
  match node.name? with
  | some name => if name = "" then none else some (node.tag, name)
  | none => none

/-- The declarations of the elements below the root, in depth-first order. -/
def declarations (root : Element) : List (String × String) :=
  root.preorder.filterMap declaration?

/-- What generation takes from an element is its declaration. -/
theorem ofElement?_eq_declaration? (node : Element) :
    NamedElement.ofElement? node =
      (declaration? node).map fun declared => .ofName declared.1 declared.2 := by
  unfold NamedElement.ofElement? declaration? Element.isNamed
  cases node.name? with
  | none => rfl
  | some name => by_cases hempty : name = "" <;> simp [hempty]

/-- What generation takes from a document is its declarations. -/
theorem namedElements_eq_declarations (root : Element) :
    namedElements root =
      (declarations root).map fun declared => .ofName declared.1 declared.2 := by
  rw [namedElements, Element.descendants_eq_preorder, declarations, List.map_filterMap]
  exact congrArg (List.filterMap · root.preorder) (funext ofElement?_eq_declaration?)

/-- Where no tag has a type, every declaration becomes a warning, and there are no other ones. -/
theorem documentBindings_empty (root : Element) (shape : Shape) {asset : AssetName}
    (valid : asset.check = .ok ()) :
    ∃ generated, documentBindings .empty .allow root shape asset = .ok generated ∧
      generated.warnings = (declarations root).map fun declared =>
        .untypedTag declared.1 declared.2 := by
  have hbound : BoundElement.ofNamed? .empty = fun _ => none := by
    funext element
    rw [BoundElement.ofNamed?, ElementTypes.typed?_empty, Option.map_none]
  have hwarned : untypedWarning? .empty =
      fun element => some (.untypedTag element.tag element.declaredName) := by
    funext element
    rw [untypedWarning?, ElementTypes.typed?_empty]
  have hselection : Selection.ofNamed (namedElements root) .empty =
      ⟨[], (declarations root).map fun declared => .untypedTag declared.1 declared.2⟩ := by
    rw [Selection.ofNamed, hbound, hwarned, namedElements_eq_declarations, List.filterMap_none,
      List.filterMap_eq_map', List.map_map]
    exact congrArg (Selection.mk []) (List.append_nil _)
  rw [documentBindings_eq_bindingsOf, bindingsOf, hselection, renderSelection, bindingsTree, valid]
  simp only [accept_allow, keepUnreserved, Surroundings.sift]
  exact ⟨_, rfl, List.append_nil _⟩

/-- Two documents have the same bindings throughout exactly if they have the same declarations. -/
theorem documentBindings_eq_iff (first second : Element) :
    (∀ table policy shape asset,
        documentBindings table policy first shape asset =
          documentBindings table policy second shape asset) ↔
      declarations first = declarations second := by
  constructor
  · -- The warnings of the empty table list the declarations, and any valid asset will do for them.
    intro hsame
    have hvalid : AssetName.check { stem := "Menu" } = .ok () := by decide +kernel
    obtain ⟨one, hfirst, hone⟩ := documentBindings_empty first .document hvalid
    obtain ⟨other, hsecond, hother⟩ := documentBindings_empty second .document hvalid
    rw [hsame, hsecond] at hfirst
    obtain rfl := Except.ok.inj hfirst
    have hwarnings := hone.symm.trans hother
    refine List.map_injective_iff.2 ?_ hwarnings
    rintro ⟨tag, name⟩ ⟨tag', name'⟩ heq
    cases heq
    rfl
  · intro hsame table policy shape asset
    rw [documentBindings_eq_bindingsOf, documentBindings_eq_bindingsOf,
      namedElements_eq_declarations, namedElements_eq_declarations, hsame]

end UxmlBindings.Binding
