import UxmlBindings.Markup.Document
import UxmlBindings.Proofs.Markup.Description
import UxmlBindings.Proofs.Outcome

/-!
# Linearised trees

A tree written down as events is linear: the events of an element are its opening tag, the events of
its children in order and its closing tag, or a single self-closing tag if it has no children. The
reader of a document goes the other way. `parse_eq_iff` says which events it turns into which tree,
and of all other events why they are refused.

A run of the reader is followed by what it has seen: either the events so far leave some elements
open, each with the children completed so far, or they are those of one complete tree. Every event
leads from such a state to such a state, unless a second tree begins.
-/

namespace UxmlBindings.Markup

/-- The events are those of trees that follow each other. -/
inductive Linearises : List Event → List Element → Prop
  | nil : Linearises [] []
  | selfClosing {tag : Tag} {node : Element} {after : List Event} {rest : List Element}
      (described : tag.Describes node) (childless : node.children = [])
      (following : Linearises after rest) :
      Linearises (.selfClosing tag :: after) (node :: rest)
  | enclosing {tag : Tag} {node : Element} {inside after : List Event} {rest : List Element}
      (described : tag.Describes node) (below : Linearises inside node.children)
      (following : Linearises after rest) :
      Linearises (.opening tag :: (inside ++ .closing tag.name :: after)) (node :: rest)

/-- The events end inside elements that are still open, innermost first. Such an element has the
children that are complete. -/
inductive EndsInside : List Event → List Element → Prop
  | outside : EndsInside [] []
  | inside {before within : List Event} {outer : List Element} {tag : Tag} {node : Element}
      (around : EndsInside before outer) (described : tag.Describes node)
      (below : Linearises within node.children) :
      EndsInside (before ++ .opening tag :: within) (node :: outer)

/-- Whether an event is a tag. -/
def Event.isTag : Event → Bool
  | .other => false
  | _ => true

/-- Inside the given open elements, every closing tag names the element that it closes. -/
def Event.Nested : List (List Char) → List Event → Prop
  | _, [] => True
  | openNames, .opening tag :: rest => Event.Nested (tag.name :: openNames) rest
  | [], .closing _ :: _ => False
  | innermost :: outer, .closing name :: rest => name = innermost ∧ Event.Nested outer rest
  | openNames, .selfClosing _ :: rest => Event.Nested openNames rest
  | openNames, .other :: rest => Event.Nested openNames rest

/-- What tags, taken together, amount to: a tree, or the reason why they do not describe one. -/
inductive Amounts : List Event → Except DocumentError Element → Prop
  | tree {tags : List Event} {root : Element} (linear : Linearises tags [root]) :
      Amounts tags (.ok root)
  | nothing : Amounts [] (.error (.structure .noRoot))
  | unclosed {tags : List Event} {innermost : Element} {outer : List Element}
      (inside : EndsInside tags (innermost :: outer)) :
      Amounts tags (.error (.unclosedElement innermost.writtenTag))
  | secondRoot {first rest : List Event} {second : Event} {root : Element} {tag : Tag}
      (linear : Linearises first [root]) (begins : second = .opening tag ∨ second = .selfClosing tag) :
      Amounts (first ++ second :: rest) (.error (.structure .severalRoots))

/-- Trees that follow trees are trees that follow each other. -/
theorem Linearises.append {before after : List Event} {first second : List Element}
    (linear : Linearises before first) (following : Linearises after second) :
    Linearises (before ++ after) (first ++ second) := by
  induction linear with
  | nil => exact following
  | selfClosing described childless _ ih => exact .selfClosing described childless ih
  | @enclosing tag node inside later rest described below _ _ ih =>
    rw [List.cons_append, List.append_assoc]
    exact .enclosing described below ih

/-- What is read after a sequence of events depends on the growth that they leave. -/
theorem Growth.after_append (growth : Growth) (first second : List Event) :
    growth.after (first ++ second) = growth.after first >>= fun growth => growth.after second := by
  induction first generalizing growth with
  | nil => rfl
  | cons event rest ih =>
    rw [List.cons_append, Growth.after, Growth.after, bind_assoc]
    exact bind_congr fun growth => ih growth

/-- An opening tag opens its element, unless a complete tree stands before it. -/
theorem Growth.next_opening {tag : Tag} {node : Element} (described : tag.Describes node)
    {growth : Growth} (hroom : growth.openElements ≠ [] ∨ growth.root = none) :
    growth.next (.opening tag) =
      .ok { growth with openElements := { node with children := [] } :: growth.openElements } := by
  have hfree : (growth.openElements.isEmpty && growth.root.isSome) = false := by
    rcases hroom with h | h
    · simp [h]
    · simp [h]
  rw [Growth.next, hfree, element_of_describes described]
  rfl

/-- Trees inside an open element become its children. -/
theorem foldlM_place (nodes : List Element) (parent : Element) (outer : List Element)
    (root : Option Element) :
    nodes.foldlM Growth.place ⟨parent :: outer, root⟩ =
      .ok ⟨{ parent with children := parent.children ++ nodes } :: outer, root⟩ := by
  induction nodes generalizing parent with
  | nil =>
    rw [List.append_nil, parent.parts]
    rfl
  | cons first rest ih =>
    rw [List.foldlM_cons]
    refine (ih { parent with children := parent.children ++ [first] }).trans ?_
    rw [List.append_assoc, List.singleton_append]

/-- The events of trees put these trees in their place, one after the other. -/
theorem Linearises.after {events : List Event} {nodes : List Element}
    (linear : Linearises events nodes) (growth : Growth) :
    growth.after events = nodes.foldlM Growth.place growth := by
  induction linear generalizing growth with
  | nil => rfl
  | @selfClosing tag node _ _ described childless _ ih =>
    have helement : tag.element = .ok node := by
      rw [element_of_describes described, ← childless, node.parts]
    rw [Growth.after, Growth.next, helement, List.foldlM_cons]
    exact bind_congr fun growth => ih growth
  | @enclosing tag node inside after rest described below _ ihBelow ih =>
    rw [Growth.after, List.foldlM_cons]
    by_cases hroom : growth.openElements ≠ [] ∨ growth.root = none
    · rw [Growth.next_opening described hroom]
      change (Growth.mk ({ node with children := [] } :: growth.openElements) growth.root).after
        (inside ++ .closing tag.name :: after) = _
      rw [Growth.after_append, ihBelow, foldlM_place, List.nil_append, node.parts]
      exact bind_congr fun growth => ih growth
    · -- A tree is complete already: the tag and the placing of its element are refused alike.
      obtain ⟨openElements, root⟩ := growth
      obtain ⟨hopen, hroot⟩ := not_or.1 hroom
      cases openElements with
      | cons parent outer => exact absurd (List.cons_ne_nil parent outer) hopen
      | nil =>
        cases root with
        | none => exact absurd rfl hroot
        | some root => rfl

/-- Events that end inside elements leave these elements open. -/
theorem EndsInside.after {events : List Event} {openElements : List Element}
    (inside : EndsInside events openElements) :
    ({} : Growth).after events = .ok { openElements } := by
  induction inside with
  | outside => rfl
  | @inside before within outer tag node around described below ih =>
    rw [Growth.after_append, ih]
    change (Growth.mk outer none).after (.opening tag :: within) = _
    rw [Growth.after, Growth.next_opening described (.inr rfl)]
    change (Growth.mk ({ node with children := [] } :: outer) none).after within = _
    rw [below.after, foldlM_place, List.nil_append, node.parts]

/-- A tag is nested in the elements that are open before it. -/
theorem nested_of_ofContents {openNames later : List (List Char)} {contents : List Char}
    {event : Event} {events : List Event}
    (h : Event.ofContents openNames contents = .ok (event, later))
    (hlater : Event.Nested later events) : Event.Nested openNames (event :: events) := by
  unfold Event.ofContents at h
  split at h
  · split at h
    · cases h
    · dsimp only at h
      split at h
      · rename_i hname
        cases h
        exact ⟨hname, hlater⟩
      · cases h
  · split at h
    · cases h
      exact hlater
    · cases h
      exact hlater

/-- Every event is nested in the elements that are open before it. -/
theorem nested_of_next {openNames later : List (List Char)} {first : Char} {text rest : List Char}
    {event : Event} {events : List Event}
    (h : Event.next openNames first text = .ok (event, later, rest))
    (hlater : Event.Nested later events) : Event.Nested openNames (event :: events) := by
  unfold Event.next at h
  split at h
  · split at h
    · obtain ⟨_, _, hevent⟩ := bind_eq_ok_iff.1 h
      cases hevent
      exact hlater
    · obtain ⟨_, _, hevent⟩ := bind_eq_ok_iff.1 h
      cases hevent
      exact hlater
    · obtain ⟨⟨contents, after⟩, _, hrest⟩ := bind_eq_ok_iff.1 h
      obtain ⟨⟨event', later'⟩, htag, hevent⟩ := bind_eq_ok_iff.1 hrest
      cases hevent
      exact nested_of_ofContents htag hlater
  · split at h
    · cases h
      exact hlater
    · cases h

/-- The reader yields nested events only. -/
theorem nested_readFrom (openNames : List (List Char)) (text : List Char) :
    Event.Nested openNames (Event.readFrom openNames text).1 := by
  fun_induction Event.readFrom openNames text with
  | case1 => trivial
  | case2 => trivial
  | case3 _ _ _ _ _ _ hstep _ _ hread ih =>
    rw [hread] at ih
    exact nested_of_next hstep ih

theorem nested_read (text : List Char) : Event.Nested [] (Event.read text).1 := by
  unfold Event.read
  split
  · exact nested_readFrom [] _
  · exact nested_readFrom [] _

/-- Leaving out what carries no element changes nothing for the elements that are open. -/
theorem nested_filter_isTag {openNames : List (List Char)} {events : List Event}
    (hnested : Event.Nested openNames events) :
    Event.Nested openNames (events.filter Event.isTag) := by
  fun_induction Event.Nested openNames events with
  | case1 => trivial
  | case2 _ _ _ ih => exact ih hnested
  | case3 => exact hnested.elim
  | case4 _ _ _ _ ih => exact ⟨hnested.1, ih hnested.2⟩
  | case5 _ _ _ ih => exact ih hnested
  | case6 _ _ ih => exact ih hnested

/-- What carries no element is read without effect. -/
theorem Growth.after_filter_isTag (growth : Growth) (events : List Event) :
    growth.after (events.filter Event.isTag) = growth.after events := by
  induction events generalizing growth with
  | nil => rfl
  | cons event rest ih =>
    cases event with
    | other => exact ih growth
    | _ => exact bind_congr fun growth => ih growth

/-- Only the tags of a document matter. -/
theorem ofEvents_eq_filter (events : List Event) :
    Element.ofEvents events =
      ({} : Growth).after (events.filter Event.isTag) >>= Growth.finish := by
  rw [Growth.after_filter_isTag]
  rfl

/-- The attributes of every tag among the events can be read. -/
def Event.Decoded (events : List Event) : Prop :=
  ∀ tag, .opening tag ∈ events ∨ .selfClosing tag ∈ events → ∃ written, tag.attributes = .ok written

/-- What follows a complete tree is nothing, or begins a second one. -/
theorem amounts_of_complete {done rest : List Event} {root : Element}
    (linear : Linearises done [root]) (hnested : Event.Nested [] rest) (hdecoded : Event.Decoded rest)
    (htags : ∀ event ∈ rest, event.isTag) :
    Amounts (done ++ rest) ((⟨[], some root⟩ : Growth).after rest >>= Growth.finish) := by
  cases rest with
  | nil =>
    rw [List.append_nil]
    exact .tree linear
  | cons event rest =>
    cases event with
    | opening tag => exact .secondRoot linear (.inl rfl)
    | selfClosing tag =>
      obtain ⟨written, hwritten⟩ := hdecoded tag (.inr List.mem_cons_self)
      obtain ⟨node, helement, -, -⟩ := describes_element hwritten
      rw [Growth.after, Growth.next, helement]
      exact .secondRoot linear (.inr rfl)
    | closing name => exact hnested.elim
    | other => exact absurd (htags .other List.mem_cons_self) (by decide)

/-- The names of open elements as they are written. -/
def writtenNames (openElements : List Element) : List (List Char) :=
  openElements.map fun node => node.writtenTag.toList

/-- A tag that is complete in itself becomes a child of the innermost open element. -/
theorem EndsInside.concat {done events : List Event} {parent node : Element} {outer : List Element}
    (inside : EndsInside done (parent :: outer)) (linear : Linearises events [node]) :
    EndsInside (done ++ events)
      ({ parent with children := parent.children ++ [node] } :: outer) := by
  cases inside with
  | @inside before within _ tag _ around described below =>
    rw [List.append_assoc, List.cons_append]
    exact .inside around ⟨described.name, described.divided, described.attributes⟩
      (below.append linear)

/-- A closing tag completes the tree of the innermost open element. -/
theorem EndsInside.close {done : List Event} {node : Element} {outer : List Element}
    (inside : EndsInside done (node :: outer)) :
    ∃ before events, done = before ++ events ∧ EndsInside before outer ∧
      Linearises (events ++ [.closing node.writtenTag.toList]) [node] := by
  cases inside with
  | @inside before within _ tag _ around described below =>
    refine ⟨before, _, rfl, around, ?_⟩
    rw [described.name, String.toList_ofList]
    exact .enclosing described below .nil

/-- Tags that continue events which leave elements open amount to what the reader makes of them. -/
theorem amounts_of_endsInside {done rest : List Event} {openElements : List Element}
    (inside : EndsInside done openElements)
    (hnested : Event.Nested (writtenNames openElements) rest) (hdecoded : Event.Decoded rest)
    (htags : ∀ event ∈ rest, event.isTag) :
    Amounts (done ++ rest) ((⟨openElements, none⟩ : Growth).after rest >>= Growth.finish) := by
  induction rest generalizing done openElements with
  | nil =>
    rw [List.append_nil]
    cases openElements with
    | nil =>
      cases inside
      exact .nothing
    | cons innermost outer => exact .unclosed inside
  | cons event rest ih =>
    have hdecoded' : Event.Decoded rest := fun tag h =>
      hdecoded tag (h.imp (List.mem_cons_of_mem _) (List.mem_cons_of_mem _))
    have htags' : ∀ event ∈ rest, event.isTag := fun event h =>
      htags event (List.mem_cons_of_mem _ h)
    -- A completed tree is the root if no element is open, and a child of the innermost one otherwise.
    have hplaced {before events : List Event} {node : Element} {outer : List Element}
        (around : EndsInside before outer) (linear : Linearises events [node])
        (hlater : Event.Nested (writtenNames outer) rest) :
        Amounts (before ++ (events ++ rest))
          ((⟨outer, none⟩ : Growth).place node >>= fun growth => growth.after rest >>= Growth.finish) := by
      cases outer with
      | nil =>
        cases around
        exact amounts_of_complete linear hlater hdecoded' htags'
      | cons parent outer =>
        rw [← List.append_assoc]
        exact ih (around.concat linear) hlater hdecoded' htags'
    cases event with
    | opening tag =>
      obtain ⟨written, hwritten⟩ := hdecoded tag (.inl List.mem_cons_self)
      obtain ⟨node, -, described, childless⟩ := describes_element hwritten
      have hopened : EndsInside (done ++ [.opening tag]) (node :: openElements) :=
        .inside inside described (childless ▸ .nil)
      have hnames : writtenNames (node :: openElements) = tag.name :: writtenNames openElements := by
        rw [writtenNames, List.map_cons, described.name, String.toList_ofList]
        rfl
      have hrest := ih hopened (hnames ▸ hnested) hdecoded' htags'
      rw [Growth.after, Growth.next_opening described (.inr rfl), ← childless, node.parts]
      rwa [List.append_assoc] at hrest
    | selfClosing tag =>
      obtain ⟨written, hwritten⟩ := hdecoded tag (.inr List.mem_cons_self)
      obtain ⟨node, helement, described, childless⟩ := describes_element hwritten
      rw [Growth.after, Growth.next, helement, bind_assoc]
      exact hplaced inside (.selfClosing described childless .nil) hnested
    | closing name =>
      cases openElements with
      | nil => exact hnested.elim
      | cons innermost outer =>
        obtain ⟨rfl, hlater⟩ := hnested
        obtain ⟨before, events, rfl, around, linear⟩ := inside.close
        have hclosed := hplaced around linear hlater
        rw [List.append_assoc] at hclosed ⊢
        rw [Growth.after, bind_assoc]
        exact hclosed
    | other => exact absurd (htags .other List.mem_cons_self) (by decide)

/-- What the tags of nested events amount to is what the reader makes of them. -/
theorem ofEvents_eq_iff {events : List Event} (hnested : Event.Nested [] events)
    (hdecoded : Event.Decoded events) (outcome : Except DocumentError Element) :
    Element.ofEvents events = outcome ↔ Amounts (events.filter Event.isTag) outcome := by
  have hdecoded' : Event.Decoded (events.filter Event.isTag) := fun tag h =>
    hdecoded tag (h.imp (fun h => (List.mem_filter.1 h).1) fun h => (List.mem_filter.1 h).1)
  rw [ofEvents_eq_filter]
  constructor
  · rintro rfl
    exact amounts_of_endsInside .outside (nested_filter_isTag hnested) hdecoded' fun event h =>
      (List.mem_filter.1 h).2
  · intro hamounts
    generalize events.filter Event.isTag = tags at hdecoded' hamounts
    cases hamounts with
    | tree linear => rw [linear.after]; rfl
    | nothing => rfl
    | unclosed inside => rw [inside.after]; rfl
    | @secondRoot first rest second root tag linear begins =>
      rw [Growth.after_append, linear.after]
      change (Growth.mk [] (some root)).after (second :: rest) >>= Growth.finish = _
      rcases begins with rfl | rfl
      · rfl
      · obtain ⟨written, hwritten⟩ := hdecoded' tag (.inr (by simp))
        obtain ⟨node, helement, -, -⟩ := describes_element hwritten
        rw [Growth.after, Growth.next, helement]
        rfl

/-- Let the markup of a text be without faults and the attributes of all its tags be readable. Then
the outcome of reading it is what its tags amount to: the tree of which they are the linear form, or
the reason why there is none. -/
theorem parse_eq_iff {text : String} {events : List Event}
    (hread : Event.read text.toList = (events, none)) (hdecoded : Event.Decoded events)
    (outcome : Except DocumentError Element) :
    Element.parse text = outcome ↔ Amounts (events.filter Event.isTag) outcome := by
  have hnested : Event.Nested [] events := by
    have h := nested_read text.toList
    rwa [hread] at h
  rw [Element.parse_eq_ofEvents hread]
  exact ofEvents_eq_iff hnested hdecoded outcome

/-- A document with a comment, a key written twice, and a child. -/
def overwritingText : String := "<ui:A k='1' k='2'><!-- none --><B/></ui:A>"

/-- The events of this document. -/
def overwritingEvents : List Event :=
  [.opening ⟨"ui:A".toList, " k='1' k='2'".toList⟩, .other, .selfClosing ⟨['B'], []⟩,
    .closing "ui:A".toList]

/-- The tree of this document. -/
def overwritingTree : Element where
  tag := "A"
  scope := some "ui"
  attributes := ({} : Attributes).insert "k" "2"
  children := [{ tag := "B" }]

theorem parse_eq_iff_overwriting :
    Event.read overwritingText.toList = (overwritingEvents, none) ∧
      Event.Decoded overwritingEvents ∧
      Amounts (overwritingEvents.filter Event.isTag) (.ok overwritingTree) ∧
      Element.parse overwritingText = .ok overwritingTree := by
  have hread : Event.read overwritingText.toList = (overwritingEvents, none) := by decide +kernel
  have houter : (Tag.mk "ui:A".toList " k='1' k='2'".toList).attributes =
      .ok [("k", "1"), ("k", "2")] := eq_ok_of_toOption (by decide +kernel)
  have hinner : (Tag.mk ['B'] []).attributes = .ok [] := eq_ok_of_toOption (by decide +kernel)
  have hdecoded : Event.Decoded overwritingEvents := by
    rintro tag (hmem | hmem)
    · obtain rfl : tag = ⟨"ui:A".toList, " k='1' k='2'".toList⟩ := by
        simpa [overwritingEvents] using hmem
      exact ⟨_, houter⟩
    · obtain rfl : tag = ⟨['B'], []⟩ := by
        simpa [overwritingEvents] using hmem
      exact ⟨_, hinner⟩
  have hbelow : Linearises [.selfClosing ⟨['B'], []⟩] overwritingTree.children :=
    .selfClosing ⟨by decide, by decide, _, hinner, fun key => rfl⟩ rfl .nil
  have hamounts : Amounts (overwritingEvents.filter Event.isTag) (.ok overwritingTree) := by
    refine .tree (.enclosing ⟨by decide, by decide, _, houter, fun key => ?_⟩ hbelow .nil)
    by_cases hkey : key = "k"
    · subst hkey
      decide
    · simp [overwritingTree, Element.get?, List.lookup_cons, beq_false_of_ne hkey,
        Ne.symm hkey]
  exact ⟨hread, hdecoded, hamounts, (parse_eq_iff hread hdecoded _).2 hamounts⟩

end UxmlBindings.Markup
