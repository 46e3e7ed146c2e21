import Mathlib.Data.List.Basic
import UxmlBindings.Markup.Element

/-!
# Walks through trees

A walk hands out one element after the other until it ends. `Walk.below_yields` says what it hands
out below an element: every element there, each of them once, in the order of the recursive listing,
and nothing else.

Elements of a tree can be equal as values, so an element below another one is told by its place, the
numbers of the children on the way down to it. Document order is the order of places as words: the
place of an element comes before the places below it, and these before the places of later siblings.
-/

namespace UxmlBindings.Markup

/-- The walk hands out the elements of the list, one after the other, and ends. -/
inductive Walk.Yields : Walk → List Element → Prop
  | done {walk : Walk} (hnone : walk.next? = none) : Walk.Yields walk []
  | step {walk later : Walk} {node : Element} {rest : List Element}
      (hnext : walk.next? = some (node, later)) (hrest : Walk.Yields later rest) :
      Walk.Yields walk (node :: rest)

/-- There is only one way for a walk to go. -/
theorem Walk.Yields.unique {walk : Walk} {items others : List Element} (first : walk.Yields items)
    (second : walk.Yields others) : items = others := by
  induction first generalizing others with
  | done hnone =>
    cases second with
    | done => rfl
    | step hnext =>
      rw [hnone] at hnext
      cases hnext
  | step hnext _ ih =>
    cases second with
    | done hnone =>
      rw [hnone] at hnext
      cases hnext
    | step hother hrest =>
      obtain ⟨rfl, rfl⟩ := Prod.mk.inj (Option.some.inj (hnext.symm.trans hother))
      rw [ih hrest]

/-- Every walk ends. -/
theorem Walk.yields_toList (walk : Walk) : walk.Yields walk.toList := by
  fun_induction Walk.toList walk with
  | case1 walk hnone => exact .done hnone
  | case2 walk node later hnext ih => exact .step hnext ih

namespace Element

/-- The element at a place, which says what child to take on every level. -/
def at? (node : Element) : List Nat → Option Element
  | [] => some node
  | number :: below => node.children[number]?.bind fun child => child.at? below

mutual

/-- The places below an element, in document order. -/
def places : Element → List (List Nat)
  | ⟨_, _, _, children⟩ => placesFrom 0 children

/-- The places of trees and those below them, where the first tree has the given number. -/
def placesFrom (number : Nat) : List Element → List (List Nat)
  | [] => []
  | first :: rest =>
    [number] :: (first.places.map (number :: ·) ++ placesFrom (number + 1) rest)

end

mutual

/-- The places below an element are those that lead to an element and do not stay where they are. -/
theorem mem_places_iff (node : Element) (place : List Nat) :
    place ∈ node.places ↔ place ≠ [] ∧ (node.at? place).isSome = true := by
  obtain ⟨tag, scope, attributes, children⟩ := node
  rw [places, mem_placesFrom_iff 0 children]
  cases place with
  | nil => simp
  | cons number below => simp [at?]

/-- The places of numbered trees start with the number of one of them. -/
theorem mem_placesFrom_iff (number : Nat) (nodes : List Element) (place : List Nat) :
    place ∈ placesFrom number nodes ↔
      ∃ index below, place = (number + index) :: below ∧
        (nodes[index]?.bind fun node => node.at? below).isSome = true := by
  cases nodes with
  | nil => simp [placesFrom]
  | cons first rest =>
    rw [placesFrom, List.mem_cons, List.mem_append, List.mem_map, mem_placesFrom_iff (number + 1) rest]
    constructor
    · rintro (rfl | ⟨below, hbelow, rfl⟩ | ⟨index, below, rfl, hsome⟩)
      · exact ⟨0, [], rfl, rfl⟩
      · exact ⟨0, below, rfl, ((mem_places_iff first below).1 hbelow).2⟩
      · exact ⟨index + 1, below, by rw [Nat.add_right_comm, Nat.add_assoc], hsome⟩
    · rintro ⟨index, below, rfl, hsome⟩
      cases index with
      | zero =>
        cases below with
        | nil => exact .inl rfl
        | cons next below =>
          exact .inr (.inl ⟨next :: below, (mem_places_iff first _).2 ⟨by simp, hsome⟩, rfl⟩)
      | succ index =>
        exact .inr (.inr ⟨index, below, by rw [Nat.add_right_comm, Nat.add_assoc], hsome⟩)

end

mutual

/-- The places below an element come in the order of words, none of them twice. -/
theorem pairwise_places (node : Element) : node.places.Pairwise (· < ·) := by
  obtain ⟨tag, scope, attributes, children⟩ := node
  exact pairwise_placesFrom 0 children

/-- The places of numbered trees come in the order of words, none of them twice. -/
theorem pairwise_placesFrom (number : Nat) (nodes : List Element) :
    (placesFrom number nodes).Pairwise (· < ·) := by
  cases nodes with
  | nil => exact .nil
  | cons first rest =>
    rw [placesFrom, List.pairwise_cons, List.pairwise_append, List.pairwise_map]
    have hbelow : first.places.Pairwise fun place other => number :: place < number :: other :=
      (pairwise_places first).imp fun hless => List.cons_lt_cons_iff.2 (.inr ⟨rfl, hless⟩)
    have hlater : ∀ place ∈ placesFrom (number + 1) rest, ∀ below, number :: below < place := by
      intro place hplace below
      obtain ⟨index, below', rfl, -⟩ := (mem_placesFrom_iff (number + 1) rest place).1 hplace
      exact List.cons_lt_cons_iff.2 (.inl (by omega))
    refine ⟨fun place hplace => ?_, hbelow, pairwise_placesFrom (number + 1) rest, ?_⟩
    · rcases List.mem_append.1 hplace with hfirst | hrest
      · obtain ⟨below, hmem, rfl⟩ := List.mem_map.1 hfirst
        obtain ⟨hproper, -⟩ := (mem_places_iff first below).1 hmem
        obtain ⟨next, rest', rfl⟩ := List.exists_cons_of_ne_nil hproper
        exact List.cons_lt_cons_iff.2 (.inr ⟨rfl, List.nil_lt_cons next rest'⟩)
      · exact hlater place hrest []
    · intro place hfirst other hother
      obtain ⟨below, -, rfl⟩ := List.mem_map.1 hfirst
      exact hlater other hother below

end

mutual

/-- The elements at the places below an element are those of the recursive listing. -/
theorem map_at?_places (node : Element) : node.places.map node.at? = node.preorder.map some := by
  obtain ⟨tag, scope, attributes, children⟩ := node
  exact map_at?_placesFrom ⟨tag, scope, attributes, children⟩ [] children rfl

/-- The elements at the places of the last children of an element and below them are those of the
recursive listing. -/
theorem map_at?_placesFrom (node : Element) (before nodes : List Element)
    (hchildren : node.children = before ++ nodes) :
    (placesFrom before.length nodes).map node.at? = (preorderList nodes).map some := by
  cases nodes with
  | nil => rfl
  | cons first rest =>
    have hfirst : node.children[before.length]? = some first := by simp [hchildren]
    have hbelow : (first.places.map (before.length :: ·)).map node.at? = first.preorder.map some := by
      rw [← map_at?_places first, List.map_map]
      exact List.map_congr_left fun below _ => by rw [Function.comp_apply, at?, hfirst, Option.bind_some]
    -- Places count all children, so those that were passed are carried along.
    have hrest := map_at?_placesFrom node (before ++ [first]) rest (by simp [hchildren])
    rw [List.length_append, List.length_singleton] at hrest
    rw [placesFrom, List.map_cons, List.map_append, hbelow, hrest, at?, hfirst, preorderList,
      List.map_cons, List.map_append]
    rfl

end

/-- The recursive listing goes through the children in order: each child, then what is below it. -/
theorem preorderList_eq_flatMap (nodes : List Element) :
    preorderList nodes = nodes.flatMap fun node => node :: node.preorder := by
  induction nodes with
  | nil => rfl
  | cons first rest ih => rw [preorderList, ih, List.flatMap_cons, List.cons_append]

mutual

/-- All elements of a tree but its root are listed. -/
theorem size_eq_length_preorder (node : Element) : node.size = node.preorder.length + 1 := by
  obtain ⟨tag, scope, attributes, children⟩ := node
  rw [size, preorder, sizeList_eq_length_preorderList children, Nat.add_comm]

/-- All elements of trees are listed. -/
theorem sizeList_eq_length_preorderList (nodes : List Element) :
    sizeList nodes = (preorderList nodes).length := by
  cases nodes with
  | nil => rfl
  | cons first rest =>
    rw [sizeList, preorderList, List.length_cons, List.length_append,
      sizeList_eq_length_preorderList rest, size_eq_length_preorder first]
    omega

end

end Element

/-- The walk below an element hands out its descendants and then ends. They are listed recursively,
each child before what is below it and then the next child, and they are as many as the tree has
elements besides its root. Each of them stands for one place: the places, in the order of words, are
all that lead from the element to another one, and none of them comes twice. -/
theorem Walk.below_yields (node : Element) :
    (∀ items, (Walk.below node).Yields items ↔ items = node.descendants) ∧
      node.descendants = node.children.flatMap (fun child => child :: child.descendants) ∧
      node.size = node.descendants.length + 1 ∧
      ∃ places : List (List Nat), places.Pairwise (· < ·) ∧
        (∀ place, place ∈ places ↔ place ≠ [] ∧ (node.at? place).isSome = true) ∧
        places.map node.at? = node.descendants.map some := by
  have hrecursive : node.descendants = node.children.flatMap fun child => child :: child.descendants := by
    simp only [Element.descendants_eq_preorder]
    rw [Element.preorder_eq, Element.preorderList_eq_flatMap]
  have hsize : node.size = node.descendants.length + 1 := by
    rw [Element.descendants_eq_preorder, Element.size_eq_length_preorder]
  have hplaces : node.places.map node.at? = node.descendants.map some := by
    rw [Element.descendants_eq_preorder, Element.map_at?_places]
  have hyields (items : List Element) : (Walk.below node).Yields items ↔ items = node.descendants :=
    ⟨fun hitems => hitems.unique (Walk.yields_toList _), fun heq => heq ▸ Walk.yields_toList _⟩
  exact ⟨hyields, hrecursive, hsize, node.places, node.pairwise_places,
    node.mem_places_iff, hplaces⟩

end UxmlBindings.Markup
