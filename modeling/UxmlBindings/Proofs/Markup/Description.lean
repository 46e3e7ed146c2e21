import UxmlBindings.Markup.Tag

/-!
# Elements that tags describe

What a tag says about its element can be stated without the way in which the element is built: it is
called what is written, and each key has the value that is written for it last. The element that a
tag stands for is the only childless one of which this is true.
-/

namespace UxmlBindings.Markup

/-- A tag describes an element: the tag of the element, scope included, is the name as it is written,
divided at its first colon, and a key has the value that is written for it last. -/
structure Tag.Describes (tag : Tag) (node : Element) : Prop where
  name : node.writtenTag = String.ofList tag.name
  divided : ':' ∉ (node.scope.getD node.tag).toList
  attributes : ∃ written, tag.attributes = .ok written ∧
    ∀ key, node.get? key = written.reverse.lookup key

/-- An element consists of its parts. -/
theorem Element.parts (node : Element) : Element.mk node.tag node.scope node.attributes node.children =
    node := by
  cases node
  rfl

variable {tag : Tag} {node : Element}

/-- Writing attributes into an element changes nothing but its attributes. -/
theorem foldl_set (written : List (String × String)) (start : Element) :
    written.foldl (fun node (key, value) => node.set key value) start =
      { start with
        attributes := written.foldl (fun map (key, value) => map.insert key value)
          start.attributes } := by
  induction written generalizing start with
  | nil =>
    cases start
    rfl
  | cons entry rest ih =>
    rw [List.foldl_cons, ih]
    rfl

/-- After several insertions a key has the value inserted last. -/
theorem getElem?_foldl_insert (written : List (String × String)) (map : Attributes) (key : String) :
    (written.foldl (fun map (key, value) => map.insert key value) map)[key]? =
      (written.reverse.lookup key).or map[key]? := by
  induction written generalizing map with
  | nil => simp
  | cons entry rest ih =>
    obtain ⟨other, value⟩ := entry
    rw [List.foldl_cons, ih, List.reverse_cons, List.lookup_append, Option.or_assoc]
    by_cases hkey : other = key
    · subst hkey
      simp
    · have hlookup : [(other, value)].lookup key = none := by
        simp [List.lookup_cons, beq_false_of_ne (Ne.symm hkey)]
      rw [hlookup, Option.none_or, Std.ExtTreeMap.getElem?_insert, if_neg]
      rwa [Std.LawfulEqCmp.compare_eq_iff_eq]

/-- A name without colon is the tag itself. -/
theorem emptyElement_of_notMem {name : List Char} (habsent : ':' ∉ name) :
    Tag.emptyElement name = { tag := String.ofList name } := by
  rw [Tag.emptyElement, Text.cutAt_singleton_of_notMem habsent]

/-- A name is divided at its first colon. -/
theorem emptyElement_append {scope : List Char} (habsent : ':' ∉ scope) (rest : List Char) :
    Tag.emptyElement (scope ++ ':' :: rest) =
      { tag := String.ofList rest, scope := some (String.ofList scope) } := by
  rw [Tag.emptyElement, Text.cutAt_singleton_append habsent]

/-- A tag describes the element that stands for it. -/
theorem describes_element {written : List (String × String)}
    (hwritten : tag.attributes = .ok written) :
    ∃ node, tag.element = .ok node ∧ tag.Describes node ∧ node.children = [] := by
  have helement : tag.element = .ok (written.foldl (fun node (key, value) => node.set key value)
      (Tag.emptyElement tag.name)) := by
    rw [Tag.element, hwritten]
    rfl
  have hvalues (key : String) : (written.foldl (fun map (key, value) => map.insert key value)
      (∅ : Attributes))[key]? = written.reverse.lookup key := by
    rw [getElem?_foldl_insert, Std.ExtTreeMap.getElem?_empty, Option.or_none]
  rw [foldl_set] at helement
  by_cases hcolon : ':' ∈ tag.name
  · obtain ⟨scope, rest, hname, habsent⟩ := List.eq_append_cons_of_mem hcolon
    rw [hname, emptyElement_append habsent] at helement
    refine ⟨_, helement, ⟨?_, ?_, written, hwritten, hvalues⟩, rfl⟩
    · rw [hname, ← String.toList_inj]
      simp [Element.writtenTag]
    · simpa using habsent
  · rw [emptyElement_of_notMem hcolon] at helement
    exact ⟨_, helement, ⟨rfl, by simpa using hcolon, written, hwritten, hvalues⟩, rfl⟩

/-- The element that stands for a tag is the one that it describes, but without children. -/
theorem element_of_describes (described : tag.Describes node) :
    tag.element = .ok { node with children := [] } := by
  obtain ⟨hname, hdivided, written, hwritten, hvalues⟩ := described
  have hempty : Tag.emptyElement tag.name = { tag := node.tag, scope := node.scope } := by
    cases hscope : node.scope with
    | none =>
      have habsent : ':' ∉ node.tag.toList := by simpa [hscope] using hdivided
      have hchars : tag.name = node.tag.toList := by
        rw [← String.toList_ofList (l := tag.name), ← hname, Element.writtenTag, hscope]
      rw [hchars, emptyElement_of_notMem habsent, String.ofList_toList]
    | some scope =>
      have habsent : ':' ∉ scope.toList := by simpa [hscope] using hdivided
      have hchars : tag.name = scope.toList ++ ':' :: node.tag.toList := by
        rw [← String.toList_ofList (l := tag.name), ← hname, Element.writtenTag, hscope]
        simp
      rw [hchars, emptyElement_append habsent, String.ofList_toList, String.ofList_toList]
  have hattributes : written.foldl (fun map (key, value) => map.insert key value)
      (∅ : Attributes) = node.attributes := by
    apply Std.ExtTreeMap.ext_getElem?
    intro key
    rw [getElem?_foldl_insert, Std.ExtTreeMap.getElem?_empty, Option.or_none, ← hvalues key]
    rfl
  rw [Tag.element, hwritten]
  change Except.ok (written.foldl _ (Tag.emptyElement tag.name)) = _
  rw [foldl_set, hempty, hattributes]

end UxmlBindings.Markup
